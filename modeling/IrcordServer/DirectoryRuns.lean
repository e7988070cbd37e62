import IrcordServer.DirectoryBodies
import IrcordServer.DirectoryMessages
import IrcordServer.Run

/-!
# The directory client at work

`net/directory_client.cpp`: registration, pings and the timer between them.  A request ends with the
one call of its callback; a wait that has expired is not cancelled any more, and one that is
cancelled does nothing.  Clocks and the network are the inputs of a run.
-/

open Run

namespace Ircord

/-! ## The client -/

/-- Which callback a request has. -/
inductive PostKind
  | register | ping
  deriving DecidableEq

/-- A `post_request`. -/
structure Post where
  kind : PostKind
  path : Str
  jsonBody : Str
  deriving DecidableEq

/-- The members of `DirectoryClient` that change, and what it has under way. -/
structure DirectoryRun where
  running : Bool := false
  registered : Bool := false
  serverId : Str := []
  lastError : Str := []
  /-- The timer has a wait that has not expired. -/
  timer : Bool := false
  /-- The waits that have expired and have not been handled. -/
  expired : ℕ := 0
  /-- The requests whose callback has not been called. -/
  requests : List Post := []
  /-- All requests so far. -/
  posted : List Post := []

namespace DirectoryRun

/-- `post_request`. -/
def postRequest (post : Post) (s : DirectoryRun) : DirectoryRun :=
  { s with requests := s.requests ++ [post], posted := s.posted ++ [post] }

def registration (config : ServerConfig) : Post :=
  ⟨.register, str "/api/servers/register", registrationBody config⟩

def pingFor (serverId : Str) : Post := ⟨.ping, str "/api/servers/ping", pingBody serverId⟩

/-- `register_server`. -/
def registerServer (config : ServerConfig) (s : DirectoryRun) : DirectoryRun :=
  if !s.running then s else s.postRequest (registration config)

/-- `schedule_next_ping`: a wait that is under way is cancelled by the new expiry. -/
def scheduleNextPing (s : DirectoryRun) : DirectoryRun :=
  if !s.running then s else { s with timer := true }

/-- `send_ping`. -/
def sendPing (s : DirectoryRun) : DirectoryRun :=
  if !s.running || !s.registered then s.scheduleNextPing else s.postRequest (pingFor s.serverId)

/-- The callback in `register_server`. -/
def onRegistered (success : Bool) (response : Str) (s : DirectoryRun) : DirectoryRun :=
  if !s.running then s
  else if success then
    let s := match serverIdOf response with
      | some serverId => { s with serverId, registered := true }
      | none => s
    let s :=
      if !s.registered then { s with lastError := str "Registration response missing server_id" }
      else s
    s.scheduleNextPing
  else { s with lastError := response }.scheduleNextPing

/-- The callback in `send_ping`. -/
def onPinged (success : Bool) (response : Str) (s : DirectoryRun) : DirectoryRun :=
  if !s.running then s
  else
    let s :=
      if !success && forgotten response then { s with registered := false, serverId := [] } else s
    s.scheduleNextPing

/-- The wait's handler in `schedule_next_ping`, without an error. -/
def onTimer (config : ServerConfig) (s : DirectoryRun) : DirectoryRun :=
  if !s.running then s
  else if s.registered then s.sendPing
  else s.registerServer config

/-- `start`. -/
def start (client : DirectoryClient) (config : ServerConfig) (s : DirectoryRun) : DirectoryRun :=
  if !client.enabled || s.running then s else registerServer config { s with running := true }

/-- `stop`. -/
def stop (s : DirectoryRun) : DirectoryRun :=
  if !s.running then s else { s with running := false, timer := false }

/-- The callback of a request, once the request is no longer under way. -/
def answer (kind : PostKind) (result : Bool × Str) (s : DirectoryRun) : DirectoryRun :=
  match kind with
  | .register => s.onRegistered result.1 result.2
  | .ping => s.onPinged result.1 result.2

end DirectoryRun

inductive DirectoryEvent
  | start | stop
  /-- The request at the index ends. -/
  | replied (index : ℕ) (outcome : PostOutcome)
  | timerExpires
  | timerFires

namespace DirectoryRun

/-- The request at the index is no longer under way. -/
def finish (index : ℕ) (s : DirectoryRun) : DirectoryRun :=
  { s with requests := s.requests.eraseIdx index }

/-- An expired wait is no longer under way. -/
def takeWait (s : DirectoryRun) : DirectoryRun := { s with expired := s.expired - 1 }

/-- What one event does; one that cannot happen does nothing. -/
def step (client : DirectoryClient) (config : ServerConfig) (s : DirectoryRun) :
    DirectoryEvent → DirectoryRun
  | .start => s.start client config
  | .stop => s.stop
  | .replied index outcome =>
    match s.requests[index]? with
    | some post => (s.finish index).answer post.kind outcome.result
    | none => s
  | .timerExpires => if s.timer then { s with timer := false, expired := s.expired + 1 } else s
  | .timerFires =>
    if s.expired = 0 then s else s.takeWait.onTimer config

/-! ## What the directory has said -/

end DirectoryRun

/-- The server's entry in the directory as the answers tell it: the identifier, and the last
registration that went wrong. -/
structure Listing where
  id : Option Str := none
  error : Str := []
  deriving DecidableEq

/-- A registration that is answered without an identifier leaves an older one valid; a ping only
tells that the entry is gone. -/
def Listing.after (listing : Listing) : PostKind → Bool × Str → Listing
  | .register, (true, response) =>
    match serverIdOf response, listing.id with
    | some id, _ => { listing with id := some id }
    | none, none => { listing with error := str "Registration response missing server_id" }
    | none, some _ => listing
  | .register, (false, response) => { listing with error := response }
  | .ping, (success, response) =>
    if !success && forgotten response then { listing with id := none } else listing

namespace DirectoryRun

def listing (s : DirectoryRun) : Listing :=
  ⟨if s.registered then some s.serverId else none, s.lastError⟩

/-- The request the client is due to send. -/
def due (config : ServerConfig) (s : DirectoryRun) : Post :=
  match s.listing.id with
  | some id => pingFor id
  | none => registration config

/-- The requests and waits that have still to be handled. -/
def outstanding (s : DirectoryRun) : ℕ := s.requests.length + s.timer.toNat + s.expired

variable {client : DirectoryClient} {config : ServerConfig} {s : DirectoryRun}

/-- A callback changes what is known of the entry and arms the timer. -/
theorem answer_of_running (h : s.running = true) (kind : PostKind) (result : Bool × Str) :
    ∃ registered serverId lastError, s.answer kind result =
        { s with registered, serverId, lastError, timer := true } ∧
      (s.answer kind result).listing = s.listing.after kind result ∧
      ((s.registered = false → s.serverId = []) → registered = false → serverId = []) := by
  obtain ⟨running, registered, serverId, lastError, timer, expired, requests, posted⟩ := s
  obtain rfl : running = true := h
  obtain ⟨success, response⟩ := result
  cases kind with
  | ping =>
    cases hgone : !success && forgotten response with
    | true =>
      refine ⟨false, [], lastError, ?_, ?_, fun _ _ => rfl⟩
      · simp [answer, onPinged, hgone, scheduleNextPing]
      · simp [answer, onPinged, hgone, scheduleNextPing, Listing.after, listing]
    | false =>
      refine ⟨registered, serverId, lastError, ?_, ?_, id⟩
      · simp [answer, onPinged, hgone, scheduleNextPing]
      · simp [answer, onPinged, hgone, scheduleNextPing, Listing.after, listing]
  | register =>
    cases success with
    | false => exact ⟨registered, serverId, response, rfl, rfl, id⟩
    | true =>
      cases hid : serverIdOf response with
      | some serverId' =>
        refine ⟨true, serverId', lastError, ?_, ?_, nofun⟩
        · simp [answer, onRegistered, hid, scheduleNextPing]
        · simp [answer, onRegistered, hid, scheduleNextPing, Listing.after, listing]
      | none =>
        cases registered with
        | true =>
          refine ⟨true, serverId, lastError, ?_, ?_, id⟩
          · simp [answer, onRegistered, hid, scheduleNextPing]
          · simp [answer, onRegistered, hid, scheduleNextPing, Listing.after, listing]
        | false =>
          refine ⟨false, serverId, str "Registration response missing server_id", ?_, ?_, id⟩
          · simp [answer, onRegistered, hid, scheduleNextPing]
          · simp [answer, onRegistered, hid, scheduleNextPing, Listing.after, listing]

/-- A stopped client takes no notice of answers. -/
theorem answer_of_stopped (h : s.running = false) (kind : PostKind) (result : Bool × Str) :
    s.answer kind result = s := by
  cases kind <;> simp [answer, onRegistered, onPinged, h]

/-- What is handled of a wait posts the request that is due. -/
theorem onTimer_eq : s.onTimer config = if s.running then s.postRequest (due config s) else s := by
  unfold onTimer
  cases hrunning : s.running with
  | false => rfl
  | true =>
    cases hregistered : s.registered with
    | true => simp [sendPing, due, listing, hrunning, hregistered]
    | false => simp [registerServer, due, listing, hrunning, hregistered]

theorem start_eq : s.start client config =
    if client.enabled = true ∧ s.running = false then
      { s with running := true }.postRequest (registration config)
    else s := by
  unfold start registerServer
  cases client.enabled <;> cases s.running <;> rfl

/-! ## One operation at a time -/

/-- The client is started when nothing of an earlier start is under way. -/
def StartsIdle (client : DirectoryClient) (s : DirectoryRun) : DirectoryEvent → Prop
  | .start => client.enabled = true ∧ s.running = false → s.outstanding = 0
  | _ => True

theorem outstanding_postRequest (post : Post) :
    (s.postRequest post).outstanding = s.outstanding + 1 := by
  unfold outstanding postRequest
  simp only [List.length_append, List.length_cons, List.length_nil]
  omega

theorem outstanding_finish {index : ℕ} {post : Post} (hpost : s.requests[index]? = some post) :
    (s.finish index).outstanding + 1 = s.outstanding := by
  obtain ⟨hlt, -⟩ := List.getElem?_eq_some_iff.1 hpost
  have hlength : (s.requests.eraseIdx index).length = s.requests.length - 1 :=
    List.length_eraseIdx_of_lt hlt
  unfold outstanding finish
  simp only [hlength]
  omega

theorem outstanding_takeWait (h : s.expired ≠ 0) : s.takeWait.outstanding + 1 = s.outstanding := by
  unfold outstanding takeWait
  simp only
  omega

theorem outstanding_answer (h : s.running = true) (kind : PostKind) (result : Bool × Str) :
    0 < (s.answer kind result).outstanding ∧
      (s.answer kind result).outstanding ≤ s.outstanding + 1 := by
  obtain ⟨registered, serverId, lastError, heq, -, -⟩ := answer_of_running h kind result
  rw [heq]
  unfold outstanding
  simp only [Bool.toNat_true]
  omega

theorem running_answer (kind : PostKind) (result : Bool × Str) :
    (s.answer kind result).running = s.running := by
  cases hrunning : s.running with
  | false => rw [answer_of_stopped hrunning, hrunning]
  | true =>
    obtain ⟨registered, serverId, lastError, heq, -, -⟩ := answer_of_running hrunning kind result
    rw [heq]
    exact hrunning

theorem running_onTimer : (s.onTimer config).running = s.running := by
  rw [onTimer_eq]
  split_ifs <;> rfl

/-- While the client runs, something is under way that will wake it. -/
theorem outstanding_pos_step (event : DirectoryEvent)
    (h : s.running = true → 0 < s.outstanding) :
    (step client config s event).running = true →
      0 < (step client config s event).outstanding := by
  cases event with
  | start =>
    simp only [step, start_eq]
    split_ifs with hstart
    · intro _
      rw [outstanding_postRequest]
      exact Nat.succ_pos _
    · exact h
  | stop =>
    simp only [step, stop]
    split_ifs with hstopped
    · exact h
    · nofun
  | replied index outcome =>
    simp only [step]
    split
    · intro hrunning
      rw [running_answer] at hrunning
      exact (outstanding_answer hrunning _ _).1
    · exact h
  | timerExpires =>
    simp only [step]
    split_ifs with htimer
    · intro _
      unfold outstanding
      simp only
      omega
    · exact h
  | timerFires =>
    simp only [step]
    split_ifs with hexpired
    · exact h
    · intro hrunning
      rw [running_onTimer] at hrunning
      rw [onTimer_eq, if_pos hrunning, outstanding_postRequest]
      exact Nat.succ_pos _

variable (client config s) in
/-- Only a start brings something under way that does not take the place of something else. -/
theorem outstanding_step_le (event : DirectoryEvent) (hstart : event ≠ .start) :
    (step client config s event).outstanding ≤ s.outstanding := by
  cases event with
  | start => exact absurd rfl hstart
  | stop =>
    simp only [step, stop]
    split_ifs with hstopped
    · exact le_rfl
    · unfold outstanding
      simp only [Bool.toNat_false]
      omega
  | replied index outcome =>
    simp only [step]
    split
    · rename_i post hpost
      have hfinish := outstanding_finish hpost
      cases hrunning : s.running with
      | false =>
        rw [answer_of_stopped (s := s.finish index) hrunning]
        omega
      | true =>
        have hanswer := outstanding_answer (s := s.finish index) hrunning post.kind outcome.result
        omega
    · exact le_rfl
  | timerExpires =>
    simp only [step]
    split_ifs with htimer
    · unfold outstanding
      simp only [htimer, Bool.toNat_true, Bool.toNat_false]
      omega
    · exact le_rfl
  | timerFires =>
    simp only [step]
    split_ifs with hexpired
    · exact le_rfl
    · have htake := outstanding_takeWait hexpired
      rw [onTimer_eq]
      split_ifs
      · rw [outstanding_postRequest]
        omega
      · omega

theorem outstanding_le_one_step_iff (event : DirectoryEvent) (h : s.outstanding ≤ 1) :
    (step client config s event).outstanding ≤ 1 ↔ StartsIdle client s event := by
  by_cases hstart : event = .start
  · subst hstart
    simp only [step, start_eq, StartsIdle]
    split_ifs with heffective
    · rw [outstanding_postRequest]
      have hsame : { s with running := true }.outstanding = s.outstanding := rfl
      rw [hsame]
      constructor
      · intro hle _
        omega
      · intro hidle
        have := hidle heffective
        omega
    · exact iff_of_true h fun hcontra => absurd hcontra heffective
  · have hle := outstanding_step_le client config s event hstart
    have hidle : StartsIdle client s event := by
      cases event with
      | start => exact absurd rfl hstart
      | _ => trivial
    exact iff_of_true (hle.trans h) hidle

/-! ## What is posted -/

theorem posted_answer (kind : PostKind) (result : Bool × Str) :
    (s.answer kind result).posted = s.posted := by
  cases hrunning : s.running with
  | false => rw [answer_of_stopped hrunning]
  | true =>
    obtain ⟨registered, serverId, lastError, heq, -, -⟩ := answer_of_running hrunning kind result
    rw [heq]

/-- What an event posts. -/
def posts (client : DirectoryClient) (config : ServerConfig) (s : DirectoryRun) :
    DirectoryEvent → Option Post
  | .start => if client.enabled = true ∧ s.running = false then some (registration config) else none
  | .timerFires => if s.expired ≠ 0 ∧ s.running = true then some (due config s) else none
  | _ => none

variable (client config s) in
theorem posted_step (event : DirectoryEvent) :
    (step client config s event).posted = s.posted ++ (posts client config s event).toList := by
  cases event with
  | start =>
    simp only [step, start_eq, posts]
    split_ifs with hstart
    · rfl
    · exact (List.append_nil _).symm
  | stop =>
    simp only [step, stop, posts]
    split_ifs <;> exact (List.append_nil _).symm
  | replied index outcome =>
    simp only [step, posts]
    split
    · rw [posted_answer]
      exact (List.append_nil _).symm
    · exact (List.append_nil _).symm
  | timerExpires =>
    simp only [step, posts]
    split_ifs <;> exact (List.append_nil _).symm
  | timerFires =>
    simp only [step, posts, onTimer_eq]
    by_cases hexpired : s.expired = 0
    · rw [if_pos hexpired, if_neg fun h => h.1 hexpired]
      exact (List.append_nil _).symm
    · cases hrunning : s.running with
      | false =>
        have htaken : s.takeWait.running = false := hrunning
        rw [if_neg hexpired, htaken, if_neg Bool.false_ne_true, if_neg fun h => nomatch h.2]
        exact (List.append_nil _).symm
      | true =>
        have htaken : s.takeWait.running = true := hrunning
        rw [if_neg hexpired, htaken, if_pos rfl, if_pos ⟨hexpired, rfl⟩]
        rfl

/-- What the client is told by an event. -/
def told (s : DirectoryRun) : DirectoryEvent → Option (PostKind × (Bool × Str))
  | .replied index outcome =>
    if s.running then s.requests[index]?.map fun post => (post.kind, outcome.result) else none
  | _ => none

theorem listing_step (event : DirectoryEvent) :
    (step client config s event).listing =
      (told s event).toList.foldl (fun l a => l.after a.1 a.2) s.listing := by
  cases event with
  | start =>
    simp only [step, start_eq, told]
    split_ifs <;> rfl
  | stop =>
    simp only [step, stop, told]
    split_ifs <;> rfl
  | replied index outcome =>
    simp only [step, told]
    cases hpost : s.requests[index]? with
    | none => split_ifs <;> rfl
    | some post =>
      cases hrunning : s.running with
      | false =>
        have hsame : (s.finish index).answer post.kind outcome.result = s.finish index :=
          answer_of_stopped (s := s.finish index) hrunning _ _
        simp only [hsame]
        rfl
      | true =>
        obtain ⟨-, -, -, -, hlisting, -⟩ :=
          answer_of_running (s := s.finish index) hrunning post.kind outcome.result
        exact hlisting
  | timerExpires =>
    simp only [step, told]
    split_ifs <;> rfl
  | timerFires =>
    simp only [step, told, onTimer_eq]
    split_ifs <;> rfl

/-- The members hold what the answers so far come to. -/
theorem listing_final (events : List DirectoryEvent) :
    (final (step client config) s events).listing =
      (observe (step client config) told s events).foldl (fun l a => l.after a.1 a.2)
        s.listing := by
  induction events generalizing s with
  | nil => rfl
  | cons event events ih => rw [final_cons, observe, List.foldl_append, ih, listing_step]

theorem cleared_step (event : DirectoryEvent) (h : s.registered = false → s.serverId = []) :
    (step client config s event).registered = false →
      (step client config s event).serverId = [] := by
  cases event with
  | start =>
    simp only [step, start_eq]
    split_ifs <;> exact h
  | stop =>
    simp only [step, stop]
    split_ifs <;> exact h
  | replied index outcome =>
    simp only [step]
    split
    · rename_i post hpost
      cases hrunning : s.running with
      | false =>
        rw [answer_of_stopped (s := s.finish index) hrunning]
        exact h
      | true =>
        obtain ⟨registered, serverId, lastError, heq, -, hcleared⟩ :=
          answer_of_running (s := s.finish index) hrunning post.kind outcome.result
        rw [heq]
        exact hcleared h
    · exact h
  | timerExpires =>
    simp only [step]
    split_ifs <;> exact h
  | timerFires =>
    simp only [step, onTimer_eq]
    split_ifs <;> exact h

/-- What the answers of a run come to. -/
def heard (client : DirectoryClient) (config : ServerConfig) (events : List DirectoryEvent) :
    Listing :=
  (observe (step client config) told {} events).foldl (fun l a => l.after a.1 a.2) {}

/-- A client that is not started anew asks for an entry when the answers so far leave it without
one, and otherwise pings the one it has. -/
theorem posted_of_heard (events : List DirectoryEvent) (event : DirectoryEvent) :
    let s := final (step client config) {} events
    (step client config s event).posted = s.posted ∨
      ((step client config s event).posted = s.posted ++ [registration config] ∧
        (event = .start ∨ (heard client config events).id = none)) ∨
      ∃ id, (heard client config events).id = some id ∧
        (step client config s event).posted = s.posted ++ [pingFor id] := by
  intro s
  have hlisting : s.listing = heard client config events := listing_final events
  have hposted := posted_step client config s event
  cases event with
  | start =>
    simp only [posts] at hposted
    split_ifs at hposted
    · exact Or.inr (Or.inl ⟨hposted, Or.inl rfl⟩)
    · exact Or.inl (hposted.trans (List.append_nil _))
  | timerFires =>
    simp only [posts, due, hlisting] at hposted
    split_ifs at hposted
    · cases hknown : (heard client config events).id with
      | none =>
        rw [hknown] at hposted
        exact Or.inr (Or.inl ⟨hposted, Or.inr rfl⟩)
      | some id =>
        rw [hknown] at hposted
        exact Or.inr (Or.inr ⟨id, rfl, hposted⟩)
    · exact Or.inl (hposted.trans (List.append_nil _))
  | stop => exact Or.inl (hposted.trans (List.append_nil _))
  | replied index outcome => exact Or.inl (hposted.trans (List.append_nil _))
  | timerExpires => exact Or.inl (hposted.trans (List.append_nil _))

/-- The members say of the server's entry what the answers so far say, and no more, and the
requests go by them. -/
theorem requests_follow_answers (client : DirectoryClient) (config : ServerConfig)
    (events : List DirectoryEvent) (event : DirectoryEvent) :
    let s := final (step client config) {} events
    let known := heard client config events
    (s.registered = known.id.isSome ∧ s.serverId = known.id.getD [] ∧
      s.lastError = known.error) ∧
    ((step client config s event).posted = s.posted ∨
      ((step client config s event).posted = s.posted ++ [registration config] ∧
        (event = .start ∨ known.id = none)) ∨
      ∃ id, known.id = some id ∧
        (step client config s event).posted = s.posted ++ [pingFor id]) := by
  intro s known
  have hlisting : s.listing = known := listing_final events
  have hcleared : AllStates (step client config)
      (fun s => s.registered = false → s.serverId = []) {} events :=
    .of_invariant (fun _ => rfl) (fun _ => cleared_step) events
  have hid : known.id = if s.registered then some s.serverId else none :=
    congrArg Listing.id hlisting.symm
  refine ⟨⟨?_, ?_, congrArg Listing.error hlisting⟩, posted_of_heard events event⟩
  · rw [hid]
    cases s.registered <;> rfl
  · rw [hid]
    cases hregistered : s.registered with
    | false => exact hcleared.final hregistered
    | true => rfl

/-! ## The next request -/

/-- A wait that expires and is handled posts the request that is due. -/
theorem posted_wait (h : s.running = true) (hwait : s.timer = true ∨ s.expired ≠ 0) :
    (final (step client config) s [.timerExpires, .timerFires]).posted =
      s.posted ++ [due config s] := by
  obtain ⟨t, ht, hrunning, hexpired, hposted, hdue⟩ : ∃ t, step client config s .timerExpires = t ∧
      t.running = true ∧ t.expired ≠ 0 ∧ t.posted = s.posted ∧ due config t = due config s := by
    refine ⟨_, rfl, ?_⟩
    simp only [step]
    split_ifs with htimer
    · exact ⟨h, Nat.succ_ne_zero _, rfl, rfl⟩
    · exact ⟨h, hwait.resolve_left htimer, rfl, rfl⟩
  have hfires := posted_step client config t .timerFires
  simp only [posts] at hfires
  rw [if_pos ⟨hexpired, hrunning⟩, hposted, hdue] at hfires
  rw [final_cons, ht]
  exact hfires

variable (client config) in
/-- An answer is taken in, and arms the timer. -/
theorem step_replied (h : s.running = true) {index : ℕ} {post : Post}
    (hpost : s.requests[index]? = some post) (outcome : PostOutcome) :
    let t := step client config s (.replied index outcome)
    t.running = true ∧ t.posted = s.posted ∧ t.timer = true ∧
      t.listing = s.listing.after post.kind outcome.result := by
  obtain ⟨registered, serverId, lastError, heq, hlisting, -⟩ :=
    answer_of_running (s := s.finish index) h post.kind outcome.result
  simp only [step, hpost]
  refine ⟨?_, posted_answer _ _, ?_, hlisting⟩
  · rw [running_answer]
    exact h
  · rw [heq]

variable (client config) in
/-- Without a request to answer, a wait is under way. -/
theorem waits_of_replied (h : s.running = true) (hwaiting : 0 < s.outstanding)
    (outcome : PostOutcome) :
    let t := step client config s (.replied 0 outcome)
    t.running = true ∧ t.posted = s.posted ∧ (t.timer = true ∨ t.expired ≠ 0) := by
  intro t
  cases hpost : s.requests[0]? with
  | some post =>
    obtain ⟨hrunning, hposted, htimer, -⟩ :=
      step_replied client config h hpost outcome
    exact ⟨hrunning, hposted, Or.inl htimer⟩
  | none =>
    have hnone : s.requests.length = 0 := Nat.le_zero.1 (List.getElem?_eq_none_iff.1 hpost)
    have hsame : t = s := by simp only [t, step, hpost]
    unfold outstanding at hwaiting
    rw [hsame]
    refine ⟨h, rfl, ?_⟩
    cases htimer : s.timer with
    | true => exact Or.inl rfl
    | false =>
      rw [hnone, htimer, Bool.toNat_false] at hwaiting
      right
      omega

/-- When what is under way comes to its end, the request is posted that is due by then. -/
theorem posted_round (h : s.running = true) (hwaiting : 0 < s.outstanding) (outcome : PostOutcome) :
    (final (step client config) s [.replied 0 outcome, .timerExpires, .timerFires]).posted =
      s.posted ++ [due config (step client config s (.replied 0 outcome))] := by
  obtain ⟨hrunning, hposted, hwait⟩ :=
    waits_of_replied client config h hwaiting outcome
  rw [final_cons, posted_wait hrunning hwait, hposted]

/-- Without a second start on top of an earlier one, and only then, the client never has two
operations under way; while it runs it is never without one, and the end of that one leads to the
next request, whatever the answer is. -/
theorem one_operation (client : DirectoryClient) (config : ServerConfig)
    (events : List DirectoryEvent) :
    AllStates (step client config) (fun s => s.running = true → 0 < s.outstanding ∧
        ∀ outcome, ∃ post, (final (step client config) s
          [.replied 0 outcome, .timerExpires, .timerFires]).posted = s.posted ++ [post]) {} events ∧
      (AllStates (step client config) (fun s => s.outstanding ≤ 1) {} events ↔
        AllSteps (step client config) (StartsIdle client) {} events) := by
  have hwaiting : AllStates (step client config) (fun s => s.running = true → 0 < s.outstanding) {}
      events := .of_invariant nofun (fun _ => outstanding_pos_step) events
  refine ⟨hwaiting.mono fun s h hrunning => ⟨h hrunning, fun outcome => ?_⟩,
    allStates_iff_allSteps (Nat.zero_le 1) fun _ => outstanding_le_one_step_iff⟩
  exact ⟨_, posted_round hrunning (h hrunning) outcome⟩

/-- A registration that the directory accepts, however its answer comes in, is followed by a ping
with the identifier from the answer. -/
theorem registered_round (h : s.running = true) {index : ℕ} {post : Post}
    (hpost : s.requests[index]? = some post) (hkind : post.kind = .register)
    {response : Http.Response} (hresponse : response.WellFormed)
    (hstatus : 200 ≤ response.status ∧ response.status < 300) {id : Str}
    (hid : Assigns response.body id) {pieces : List Bytes}
    (hpieces : pieces.flatten = response.text) {ending : ReadEnd}
    (hending : ending = .eof ∨ ending = .streamTruncated) :
    let t := step client config s (.replied index (.answered pieces ending))
    t.registered = true ∧ t.serverId = id ∧
      (final (step client config) t [.timerExpires, .timerFires]).posted =
        s.posted ++ [pingFor id] ∧
      Json.parse (pingFor id).jsonBody =
        if jsonSafe id = true then some (.object [(str "server_id", .string id)]) else none := by
  intro t
  obtain ⟨hrunning, hposted, htimer, hlisting⟩ :=
    step_replied client config h hpost (.answered pieces ending)
  have hlisted : t.listing.id = some id := by
    refine (congrArg Listing.id hlisting).trans ?_
    rw [hkind, result_answered hresponse hpieces hending, decide_eq_true hstatus]
    simp only [Listing.after, serverIdOf_of_assigns hid]
  have hmembers : t.registered = true ∧ t.serverId = id := by
    unfold listing at hlisted
    simp only at hlisted
    split_ifs at hlisted with hregistered
    exact ⟨hregistered, Option.some.inj hlisted⟩
  refine ⟨hmembers.1, hmembers.2, ?_, parse_pingBody id⟩
  rw [posted_wait hrunning (Or.inl htimer), hposted, due, hlisted]

/-- A short answer in two pieces. -/
theorem registered_round_short :
    let s : DirectoryRun := { running := true, requests := [registration {}] }
    let client := DirectoryClient.new {}
    let t := step client {} s (.replied 0 (.answered
      [str "HTTP/1.1 200 OK\r\n\r\n\x7b\"server", str "_id\": \"ab\"\x7d"] .eof))
    t.registered = true ∧ t.serverId = str "ab" ∧
      (final (step client {}) t [.timerExpires, .timerFires]).posted = [pingFor (str "ab")] ∧
      Json.parse (pingFor (str "ab")).jsonBody =
        if jsonSafe (str "ab") = true then
          some (.object [(str "server_id", .string (str "ab"))])
        else none :=
  @registered_round (.new {}) {} { running := true, requests := [registration {}] } rfl 0
    (registration {}) rfl rfl
    ⟨str "HTTP/1.1", 200, str "OK", [], str "\x7b\"server_id\": \"ab\"\x7d"⟩
    ⟨by decide +kernel, by unfold Http.IsLine; decide +kernel, by decide,
      by unfold Http.IsLine; decide +kernel, by simp⟩
    (by decide) (str "ab")
    ⟨⟨[], 123, [], [32], [125], by decide, by decide, by decide, by simp [IsGap], by simp [IsGap]⟩,
      by decide +kernel⟩
    [str "HTTP/1.1 200 OK\r\n\r\n\x7b\"server", str "_id\": \"ab\"\x7d"]
    (by decide) .eof (Or.inl rfl)

/-! ## The requests as HTTP and JSON -/

end DirectoryRun

end Ircord
