import IrcordServer.Framing
import IrcordServer.Net.Delivery
import IrcordServer.Octets

/-!
# The read loop

`do_read_frame_header` and `do_read_frame_payload` against the bytes that come in on a connection.
Whatever else the server does in between, what they hand to `on_frame_received` is read off the
front of the stream.
-/

open Container Run

namespace Ircord

/-! ## Frames -/

/-- The bytes of `boost::endian::native_to_big` in memory, the highest one first. -/
def nativeToBig (v : UInt32) : Bytes := (Octets.littleEndian 4 v.toNat).reverse

/-- `boost::endian::big_to_native` of four bytes. -/
def bigToNative (b : Bytes) : UInt32 := .ofNat (Octets.ofLittleEndian b.reverse)

theorem toNat_bigToNative {b : Bytes} (h : b.length = 4) :
    (bigToNative b).toNat = Octets.ofLittleEndian b.reverse := by
  have hlt := Octets.ofLittleEndian_lt b.reverse
  rw [List.length_reverse, h] at hlt
  exact UInt32.toNat_ofNat_of_lt' hlt

namespace Session

/-- The frame that `send` builds around the serialized envelope. -/
def frame (data : Bytes) : Bytes := nativeToBig (.ofNat data.length) ++ data

theorem toNat_ofNat_of_le {n : ℕ} (h : n ≤ maxMessageSize) : (UInt32.ofNat n).toNat = n :=
  UInt32.toNat_ofNat_of_lt' (h.trans_lt (by decide))

/-- The frames of a session. -/
def framing : Framing UInt8 maxMessageSize where
  width := 4
  write n := nativeToBig (.ofNat n)
  read b := (bigToNative b).toNat
  length_write n _ := by
    rw [nativeToBig, List.length_reverse, Octets.length_littleEndian]
  read_write n h := by
    have hlength : (nativeToBig (.ofNat n)).length = 4 := by
      rw [nativeToBig, List.length_reverse, Octets.length_littleEndian]
    rw [toNat_bigToNative hlength, nativeToBig, List.reverse_reverse, toNat_ofNat_of_le h]
    refine (Octets.ofLittleEndian_ofNat 4 n).trans (Nat.mod_eq_of_lt ?_)
    exact h.trans_lt (by decide)
  write_read b h _ := by
    have hlength : b.reverse.length = 4 := by rw [List.length_reverse, h]
    have hsame := Octets.littleEndian_ofLittleEndian b.reverse
    rw [hlength] at hsame
    rw [UInt32.ofNat_toNat, nativeToBig, toNat_bigToNative h, hsame, List.reverse_reverse]

end Session

/-! ## Reading from a stream -/

/-- `async_read` of `n` bytes: as many, or an error at the end of the stream. -/
def asyncRead (n : ℕ) (unread : Bytes) : Option Bytes × Bytes :=
  if n ≤ unread.length then (some (unread.take n), unread.drop n) else (none, [])

/-- The event is the end of a read of the session. -/
def Event.ReadsFrom (s : SessionId) : Event → Prop
  | .headerRead t _ => t = s
  | .payloadRead t _ => t = s
  | _ => False

/-- What the step hands to `on_frame_received` of the session. -/
def Server.receivedFrame (s : SessionId) (sv : Server) (i : Input) : Option Bytes :=
  match i.event with
  | .payloadRead t (some data) => if t = s ∧ sv.enabled i.event = true then some data else none
  | _ => none

/-- The server with the bytes that one session has not read yet, and the frames it got so far. -/
structure Reader where
  server : Server
  unread : Bytes
  received : List Bytes

namespace Reader

/-- The outstanding read of the session ends, or the server does something else. -/
inductive Move (s : SessionId)
  | read (d : Draws)
  | other (i : Input) (apart : ¬ i.event.ReadsFrom s)

def Move.isRead {s : SessionId} : Move s → Bool
  | .read _ => true
  | .other _ _ => false

variable (codec : Codec) (crypto : Crypto) (s : SessionId)

/-- How the outstanding read ends, and what it leaves unread. -/
def completion (r : Reader) : Option (Event × Bytes) :=
  ((r.server.core s).bind (·.reading)).map fun
    | .header => ((.headerRead s ((asyncRead 4 r.unread).1.map bigToNative)),
        (asyncRead 4 r.unread).2)
    | .payload size => (.payloadRead s (asyncRead size r.unread).1, (asyncRead size r.unread).2)

def perform (r : Reader) (i : Input) (unread : Bytes) : Reader where
  server := r.server.step codec crypto i
  unread := unread
  received := r.received ++ (r.server.receivedFrame s i).toList

def step (r : Reader) : Move s → Reader
  | .read d =>
    match r.completion s with
    | none => r
    | some (event, unread) => r.perform codec crypto s ⟨d, event⟩ unread
  | .other i _ => r.perform codec crypto s i r.unread

/-- The session is not `Dead`. -/
def Open (r : Reader) : Prop := ∀ c, r.server.core s = some c → c.state ≠ .dead

instance (r : Reader) : Decidable (Open s r) :=
  inferInstanceAs (Decidable (∀ c ∈ r.server.core s, c.state ≠ .dead))

end Reader

namespace Server

section Reads

variable {codec : Codec} {crypto : Crypto} {sv sv' : Server} {i : Input} {s t : SessionId}
  {c : SessionCore} {d : Draws}

/-! ## What a step does to the read loop -/

theorem core_send (sv : Server) (t : SessionId) (env : Envelope) :
    (sv.send t env).core s = sv.core s :=
  (@quiet_send False sv _ t writable_self env).core s

theorem core_sendError (sv : Server) (t : SessionId) (code : UInt32) (message : String) :
    (sv.sendError codec d t code message).core s = sv.core s :=
  (@quiet_sendError False codec d sv t code message).core s

theorem core_doReadFrameHeader (sv : Server) (ht : t ≠ s) :
    (sv.doReadFrameHeader t).core s = sv.core s := by
  rw [(@doReadFrameHeader_moves sv t False).core, if_neg ht]

theorem Moves.core_ne {clears : Prop} {g : SessionCore → SessionCore}
    (h : Moves clears t g sv sv') (ht : t ≠ s) : sv'.core s = sv.core s := by
  rw [h.core, if_neg ht]

theorem core_modify_of_core (sv : Server) (t : SessionId) (f : Session → Session)
    (hf : ∀ x, (f x).core = x.core) : (sv.modify t f).core s = sv.core s := by
  rw [@core_modify sv t s f id hf, Option.map_id, id_eq, ite_self]

/-- A frame of another session. -/
theorem core_handleEnvelope {x : Session} {env : Envelope} (ht : t ≠ s) :
    (sv.handleEnvelope codec crypto d t x env).core s = sv.core s := by
  rcases @handleEnvelope_cases codec crypto d sv t x True env fun _ _ => trivial with
    h | ⟨-, -, -, -, -, h⟩ | ⟨auth, -, -, -, -, h⟩
  · exact h.core s
  · exact h.core_ne ht
  · rw [h.core, if_neg ht]

/-- A session that goes down leaves the cores. -/
theorem core_down {sv₁ : Server} (h : sv₁.core s = sv.core s) (t : SessionId) :
    (sv₁.onSessionDisconnected codec d t).core s = sv.core s :=
  (core_onSessionDisconnected s).trans h

theorem core_onHandshake (ht : t ≠ s) (ok : Bool) :
    (sv.onHandshake codec d t ok).core s = sv.core s := by
  have hdone : (sv.modify t fun x => { x with handshaking := false }).core s = sv.core s := by
    rw [core_modify sv t s (g := fun c => { c with handshaking := false }) fun _ => rfl, if_neg ht]
  unfold onHandshake
  dsimp only
  split_ifs
  · refine (core_doReadFrameHeader _ ht).trans ?_
    rw [core_modify _ t s (g := fun c => { c with state := .hello }) fun _ => rfl, if_neg ht, hdone]
  · exact core_down hdone t

theorem core_onHeader (ht : t ≠ s) (size : Option UInt32) :
    (sv.onHeader codec d t size).core s = sv.core s := by
  have hdone := (@stopReading_moves sv t).core_ne ht
  unfold onHeader
  dsimp only
  split
  · exact core_down hdone t
  · split_ifs
    · exact core_down ((core_sendError _ t _ _).trans hdone) t
    · exact core_down hdone t
    · rename_i size _ _
      rw [core_modify _ t s (g := fun c => { c with reading := some (.payload size.toNat) })
        fun _ => rfl, if_neg ht, hdone]

theorem core_onPayload (ht : t ≠ s) (x : Session) (data : Option Bytes) :
    (sv.onPayload codec crypto d t x data).core s = sv.core s := by
  have hdone := (@stopReading_moves sv t).core_ne ht
  unfold onPayload
  dsimp only
  split
  · exact core_down hdone t
  · refine (core_doReadFrameHeader _ ht).trans ?_
    unfold onFrameReceived
    split
    · exact (core_sendError _ t _ _).trans hdone
    · exact (core_handleEnvelope ht).trans hdone

theorem core_onWritten (sv : Server) (t : SessionId) (ok : Bool) :
    (sv.onWritten codec d t ok).core s = sv.core s := by
  have hdone : (sv.modify t fun x => { x with writes := x.writes - 1 }).core s = sv.core s :=
    core_modify_of_core sv t _ fun _ => rfl
  unfold onWritten
  dsimp only
  split_ifs
  · exact hdone
  · exact core_down hdone t

theorem core_onTimer (sv : Server) (t : SessionId) (x : Session) (wait : TimerWait) :
    (sv.onTimer codec d t x wait).core s = sv.core s := by
  have hdone : (sv.modify t fun x => { x with expired := x.expired.erase wait }).core s =
      sv.core s := core_modify_of_core sv t _ fun _ => rfl
  unfold onTimer
  dsimp only
  split
  · exact hdone
  · split
    · exact core_down hdone t
    · split_ifs
      · exact core_down hdone t
      · rw [core_send, core_modify_of_core, hdone]
        exact fun _ => rfl

/-- Whatever is no read of the session keeps its outstanding read. -/
theorem reading_step (hc : sv.core s = some c) (hidle : c.handshaking = false)
    (hapart : ¬ i.event.ReadsFrom s) :
    ∃ c', (sv.step codec crypto i).core s = some c' ∧ c'.handshaking = false ∧
      c'.reading = c.reading := by
  have hsame {sv' : Server} (h : sv'.core s = sv.core s) :
      ∃ c', sv'.core s = some c' ∧ c'.handshaking = false ∧ c'.reading = c.reading :=
    ⟨c, h.trans hc, hidle, rfl⟩
  unfold Server.step
  split_ifs with henabled
  · cases hevent : i.event with
    | accept ip =>
      unfold perform onAccept
      dsimp only
      split_ifs
      · exact hsame rfl
      · exact hsame rfl
      · exact hsame ((core_of_accept rfl hc).trans hc.symm)
    | acceptError | setMaxConnections | setMsgRate | setMotd | cleanup => exact hsame rfl
    | handshakeDone t ok =>
      have ht : t ≠ s := by
        rintro rfl
        rw [hevent] at henabled
        obtain ⟨x, found, busy⟩ := found_of_any henabled
        rw [core_of_sessions found] at hc
        cases hc
        exact Bool.false_ne_true (hidle.symm.trans busy)
      exact hsame (core_onHandshake ht ok)
    | headerRead t size =>
      have ht : t ≠ s := fun e => hapart (by rw [hevent]; exact e)
      exact hsame (core_onHeader ht size)
    | payloadRead t data =>
      have ht : t ≠ s := fun e => hapart (by rw [hevent]; exact e)
      unfold perform
      dsimp only
      split
      · exact hsame rfl
      · exact hsame (core_onPayload ht _ data)
    | writeDone t ok => exact hsame (core_onWritten sv t ok)
    | disconnectRuns t =>
      -- A handler that was posted earlier may run for the session, but it leaves the read.
      refine ⟨if t = s then { c with state := .dead, socketOpen := false } else c, ?_, ?_, ?_⟩
      · have hcore := core_modify sv t s (f := fun x => { x with
            disconnects := x.disconnects - 1
            state := .dead
            timer := none
            socketOpen := false }) (g := fun c => { c with state := .dead, socketOpen := false })
            fun _ => rfl
        refine hcore.trans ?_
        rw [hc]
        split_ifs <;> rfl
      · split_ifs <;> exact hidle
      · split_ifs <;> rfl
    | timerExpires t => exact hsame (core_modify_of_core sv t _ fun _ => rfl)
    | timerFires t wait =>
      unfold perform
      dsimp only
      split
      · exact hsame rfl
      · exact hsame (core_onTimer sv t _ wait)
    | adminDisconnect userId =>
      unfold perform
      dsimp only
      split_ifs
      · exact hsame rfl
      · split
        · exact hsame rfl
        · exact hsame (core_modify_of_core sv _ _ fun _ => rfl)
    | shutdown =>
      unfold perform onShutdown
      dsimp only
      split_ifs
      · exact hsame rfl
      · exact hsame (quiet_disconnectAll.core s)
  · exact hsame rfl

/-- What is read after a header. -/
def afterHeader (size : Option UInt32) : Option ReadOp :=
  (size.filter fun n => 1 ≤ n.toNat ∧ n.toNat ≤ Session.maxMessageSize).map fun n =>
    .payload n.toNat

theorem afterHeader_some (size : UInt32) :
    afterHeader (some size) = if 1 ≤ size.toNat ∧ size.toNat ≤ Session.maxMessageSize then
      some (.payload size.toNat) else none := by
  unfold afterHeader
  rw [Option.filter_some]
  simp only [decide_eq_true_eq]
  split_ifs <;> rfl

theorem enabled_of_core {p : Session → Bool} {q : SessionCore → Bool} (hc : sv.core s = some c)
    (hq : ∀ x, p x = q x.core) (h : q c = true) : sv.sessions[s]?.any p = true := by
  obtain ⟨x, found, rfl⟩ := core_eq_some.1 hc
  rw [found, Option.any_some, hq, h]

theorem core_headerRead (hc : sv.core s = some c) (hreads : c.reading = some .header)
    (size : Option UInt32) :
    (sv.step codec crypto ⟨d, .headerRead s size⟩).core s =
      some { c with reading := afterHeader size } := by
  have henabled : sv.enabled (.headerRead s size) = true :=
    enabled_of_core hc (q := fun c => c.reading == some .header) (fun _ => rfl) (by simp [hreads])
  have hstop : (sv.modify s fun x => { x with reading := none }).core s =
      some { c with reading := none } := by
    rw [(@stopReading_moves sv s).core, if_pos rfl, hc]
    rfl
  unfold Server.step
  rw [if_pos henabled]
  unfold perform onHeader
  dsimp only
  cases size with
  | none => exact (core_onSessionDisconnected s).trans hstop
  | some size =>
    dsimp only
    split_ifs with htoo hzero
    · have hrefused : afterHeader (some size) = none := by
        rw [afterHeader_some, if_neg fun h => absurd h.2 (not_le.2 htoo)]
      rw [core_onSessionDisconnected, core_sendError, hstop, hrefused]
    · have hrefused : afterHeader (some size) = none := by
        rw [hzero]
        rfl
      rw [core_onSessionDisconnected, hstop, hrefused]
    · have hpos : 1 ≤ size.toNat := by
        by_contra hsmall
        exact hzero (UInt32.toNat_inj.1 (by simpa using hsmall))
      have hpayload : afterHeader (some size) = some (.payload size.toNat) := by
        rw [afterHeader_some, if_pos ⟨hpos, not_lt.1 htoo⟩]
      rw [core_modify _ s s (g := fun c => { c with reading := some (.payload size.toNat) })
        fun _ => rfl, if_pos rfl, hstop, hpayload]
      rfl

theorem enabled_payloadRead {size : ℕ} {data : Option Bytes} (hc : sv.core s = some c)
    (hreads : c.reading = some (.payload size)) (hdata : ∀ b, data = some b → b.length = size) :
    sv.enabled (.payloadRead s data) = true := by
  obtain ⟨x, found, rfl⟩ := core_eq_some.1 hc
  show sv.sessions[s]?.any _ = true
  rw [found, Option.any_some]
  unfold ReadsPayload
  rw [show x.reading = some (.payload size) from hreads]
  cases data with
  | none => rfl
  | some data => exact decide_eq_true (hdata data rfl)

/-- A frame is handled, and then the next header is read. -/
theorem core_payloadRead {size : ℕ} (hc : sv.core s = some c)
    (hreads : c.reading = some (.payload size)) (data : Option Bytes)
    (hdata : ∀ b, data = some b → b.length = size) :
    ∃ c', (sv.step codec crypto ⟨d, .payloadRead s data⟩).core s = some c' ∧
      (c.handshaking = false → c'.handshaking = false) ∧
      c'.reading = if data.isSome ∧ c'.state ≠ .dead then some .header else none := by
  obtain ⟨x, found, rfl⟩ := core_eq_some.1 hc
  have henabled := enabled_payloadRead hc hreads hdata
  have hstop : (sv.modify s fun x => { x with reading := none }).core s =
      some (stopReading x.core) := by
    rw [(@stopReading_moves sv s).core, if_pos rfl, hc]
    rfl
  have hnext {sv' : Server} (c' : SessionCore) (hc' : sv'.core s = some c')
      (hidle : c'.handshaking = x.core.handshaking) (hnone : c'.reading = none) :
      ∃ c'', (sv'.doReadFrameHeader s).core s = some c'' ∧
        (x.core.handshaking = false → c''.handshaking = false) ∧
        c''.reading = if c''.state ≠ .dead then some .header else none := by
    refine ⟨readNext c', ?_, ?_, ?_⟩
    · rw [(@doReadFrameHeader_moves sv' s False).core, if_pos rfl, hc']
      rfl
    · rw [(readNext_eq c').2.2.2.1, hidle]
      exact id
    · rw [(readNext_eq c').1]
      unfold readNext
      by_cases hdead : c'.state = .dead
      · rw [if_pos hdead, if_neg (not_not_intro hdead), hnone]
      · rw [if_neg hdead, if_pos hdead]
  unfold Server.step
  rw [if_pos henabled]
  unfold perform
  dsimp only
  rw [found]
  unfold onPayload
  dsimp only
  cases data with
  | none =>
    exact ⟨stopReading x.core, (core_onSessionDisconnected s).trans hstop, id,
      by simp [stopReading]⟩
  | some data =>
    simp only [Option.isSome_some, true_and]
    unfold onFrameReceived
    split
    · exact hnext (stopReading x.core) ((core_sendError _ s _ _).trans hstop) rfl rfl
    · rename_i env _
      rcases @handleEnvelope_cases codec crypto d (sv.modify s fun x => { x with reading := none })
          s x True env fun _ _ => trivial with h | ⟨-, -, -, -, -, h⟩ | ⟨auth, -, -, -, -, h⟩
      · exact hnext (stopReading x.core) ((h.core s).trans hstop) rfl rfl
      · exact hnext (challenged d.nonce (stopReading x.core))
          (by rw [h.core, if_pos rfl, hstop]; rfl) rfl rfl
      · exact hnext (authenticated auth.userId (stopReading x.core))
          (by rw [h.core, if_pos rfl, hstop]; rfl) rfl rfl

end Reads

end Server

namespace Reader

open Server

section Loop

variable {codec : Codec} {crypto : Crypto} {s : SessionId} {r : Reader} {stream : Bytes}

/-- The frames that the loop still gets, by what it is reading. -/
def left (reading : Option ReadOp) (unread : Bytes) : List Bytes :=
  match reading with
  | none => []
  | some .header => Session.framing.frames unread
  | some (.payload size) =>
    if size ≤ unread.length then
      unread.take size :: Session.framing.frames (unread.drop size)
    else []

/-- What was received and what is left are the frames of the stream. -/
structure Follows (s : SessionId) (stream : Bytes) (r : Reader) (c : SessionCore) : Prop where
  core : r.server.core s = some c
  idle : c.handshaking = false
  payload : ∀ size, c.reading = some (.payload size) → 1 ≤ size
  frames : r.received ++ left c.reading r.unread = Session.framing.frames stream

/-- A number of reads within which the loop ends. -/
def bound (reading : Option ReadOp) (unread : Bytes) : ℕ :=
  match reading with
  | none => 0
  | some _ => unread.length + 1

theorem length_of_asyncRead {n : ℕ} {unread b : Bytes} (h : (asyncRead n unread).1 = some b) :
    b.length = n := by
  unfold asyncRead at h
  split_ifs at h with hlength
  cases h
  exact List.length_take_of_le hlength

theorem left_header (unread : Bytes) :
    left (some .header) unread =
      left (afterHeader ((asyncRead 4 unread).1.map bigToNative)) (asyncRead 4 unread).2 := by
  unfold asyncRead
  split_ifs with hlength
  · show Session.framing.frames unread =
      left (afterHeader (some (bigToNative (unread.take 4)))) (unread.drop 4)
    have hsplit := @Framing.split_of_header _ _ Session.framing unread _ hlength rfl
    have hwidth : Session.framing.width = 4 := rfl
    have hread (b : Bytes) : Session.framing.read b = (bigToNative b).toNat := rfl
    rw [hwidth, hread] at hsplit
    rw [afterHeader_some]
    by_cases hfits : 1 ≤ (bigToNative (unread.take 4)).toNat ∧
        (bigToNative (unread.take 4)).toNat ≤ Session.maxMessageSize
    · rw [if_pos hfits]
      by_cases hbody : (bigToNative (unread.take 4)).toNat ≤ (unread.drop 4).length
      · rw [if_pos ⟨hfits.1, hfits.2, hbody⟩] at hsplit
        rw [Session.framing.frames_of_some hsplit]
        exact (if_pos hbody).symm
      · rw [if_neg fun h => hbody h.2.2] at hsplit
        rw [Session.framing.frames_of_none hsplit]
        exact (if_neg hbody).symm
    · rw [if_neg fun h => hfits ⟨h.1, h.2.1⟩] at hsplit
      rw [if_neg hfits, Session.framing.frames_of_none hsplit]
      rfl
  · exact Session.framing.frames_of_none (Session.framing.split_of_short (not_le.1 hlength))

theorem left_payload (size : ℕ) (unread : Bytes) :
    left (some (.payload size)) unread = (asyncRead size unread).1.toList ++
      left (if (asyncRead size unread).1.isSome then some .header else none)
        (asyncRead size unread).2 := by
  unfold asyncRead
  split_ifs with hlength h
  · exact if_pos hlength
  · exact absurd rfl h
  · rename_i h
    exact absurd h Bool.false_ne_true
  · exact if_neg hlength

theorem bound_asyncRead {reading : Option ReadOp} {n : ℕ} (unread : Bytes) (hn : 1 ≤ n)
    (h : (asyncRead n unread).1 = none → reading = none) :
    bound reading (asyncRead n unread).2 ≤ unread.length := by
  unfold asyncRead at h ⊢
  cases reading with
  | none => exact Nat.zero_le _
  | some op =>
    split_ifs at h ⊢ with hlength
    · show (unread.drop n).length + 1 ≤ unread.length
      rw [List.length_drop]
      omega
    · cases h rfl

theorem one_le_of_afterHeader {size : Option UInt32} {n : ℕ}
    (h : afterHeader size = some (.payload n)) : 1 ≤ n := by
  cases size with
  | none => cases h
  | some size =>
    rw [afterHeader_some] at h
    split_ifs at h with hfits
    cases h
    exact hfits.1

theorem receivedFrame_of_apart {sv : Server} {i : Input} (h : ¬ i.event.ReadsFrom s) :
    sv.receivedFrame s i = none := by
  unfold Server.receivedFrame
  split
  · rename_i t data hevent
    refine if_neg fun hcond => h ?_
    rw [hevent]
    exact hcond.1
  · rfl

theorem receivedFrame_payloadRead {sv : Server} {d : Draws} {data : Option Bytes}
    (h : sv.enabled (.payloadRead s data) = true) :
    sv.receivedFrame s ⟨d, .payloadRead s data⟩ = data := by
  cases data with
  | none => rfl
  | some data => exact if_pos ⟨rfl, h⟩

/-- A move takes from the stream what the loop then gets. -/
theorem follows_step {c : SessionCore} (h : Follows s stream r c) (m : Move s)
    (hopen : Open s (r.step codec crypto s m)) :
    ∃ c', Follows s stream (r.step codec crypto s m) c' ∧
      bound c'.reading (r.step codec crypto s m).unread ≤
        bound c.reading r.unread - if m.isRead then 1 else 0 := by
  have hcompletion : r.completion s = c.reading.map fun
      | .header => ((.headerRead s ((asyncRead 4 r.unread).1.map bigToNative)),
          (asyncRead 4 r.unread).2)
      | .payload size => (.payloadRead s (asyncRead size r.unread).1,
          (asyncRead size r.unread).2) := by
    unfold completion
    rw [h.core]
    rfl
  cases m with
  | other i apart =>
    obtain ⟨c', hc', hidle, hreading⟩ := @reading_step codec crypto _ i s c h.core h.idle apart
    have hnone := @receivedFrame_of_apart s r.server i apart
    refine ⟨c', ⟨hc', hidle, by rw [hreading]; exact h.payload, ?_⟩, by rw [hreading]; rfl⟩
    show (r.received ++ (r.server.receivedFrame s i).toList) ++ left c'.reading r.unread = _
    rw [hnone, hreading, Option.toList_none, List.append_nil]
    exact h.frames
  | read d =>
    unfold step at hopen ⊢
    dsimp only at hopen ⊢
    cases hreads : c.reading with
    | none =>
      rw [hcompletion, hreads] at hopen ⊢
      exact ⟨c, h, by rw [hreads]; rfl⟩
    | some op =>
      rw [hcompletion, hreads] at hopen ⊢
      have hframes := h.frames
      rw [hreads] at hframes
      cases op with
      | header =>
        refine ⟨_, ⟨core_headerRead h.core hreads _, h.idle, fun size hsize => ?_, ?_⟩, ?_⟩
        · exact one_le_of_afterHeader hsize
        · show (r.received ++ []) ++ left (afterHeader _) (asyncRead 4 r.unread).2 = _
          rw [List.append_nil, ← left_header, hframes]
        · refine bound_asyncRead r.unread (by decide) fun hnone => ?_
          show afterHeader ((asyncRead 4 r.unread).1.map bigToNative) = none
          rw [hnone]
          rfl
      | payload size =>
        have henabled := enabled_payloadRead h.core hreads
          fun b hb => @length_of_asyncRead size r.unread b hb
        obtain ⟨c', hc', hidle, hreading⟩ := @core_payloadRead codec crypto _ s c d size h.core
          hreads (asyncRead size r.unread).1 fun b hb => length_of_asyncRead hb
        have hopen : c'.state ≠ .dead := hopen c' hc'
        simp only [hopen, ne_eq, not_false_eq_true, and_true] at hreading
        refine ⟨c', ⟨hc', hidle h.idle, fun n hn => ?_, ?_⟩, ?_⟩
        · rw [hreading] at hn
          split_ifs at hn
          cases hn
        · show (r.received ++ (r.server.receivedFrame s _).toList) ++
            left c'.reading (asyncRead size r.unread).2 = _
          rw [receivedFrame_payloadRead henabled, hreading, List.append_assoc, ← left_payload,
            hframes]
        · refine bound_asyncRead r.unread (h.payload size hreads) fun hnone => ?_
          rw [hreading, hnone]
          rfl

/-- The same for all moves of a run, and every read brings the loop nearer to its end. -/
theorem follows_run {c : SessionCore} (h : Follows s stream r c) (moves : List (Move s))
    (hopen : AllStates (step codec crypto s) (Open s) r moves) :
    ∃ c', Follows s stream (final (step codec crypto s) r moves) c' ∧
      bound c'.reading (final (step codec crypto s) r moves).unread ≤
        bound c.reading r.unread - moves.countP Move.isRead := by
  induction moves generalizing r c with
  | nil => exact ⟨c, h, le_rfl⟩
  | cons m moves ih =>
    obtain ⟨c₁, h₁, hbound₁⟩ := follows_step h m hopen.2.head
    obtain ⟨c', h', hbound'⟩ := ih h₁ hopen.2
    refine ⟨c', h', hbound'.trans ?_⟩
    rw [List.countP_cons]
    omega

/-- When the loop has had enough reads, it has received the frames of the stream. -/
theorem received_eq_frames {c : SessionCore} (h : Follows s stream r c) (moves : List (Move s))
    (hopen : AllStates (step codec crypto s) (Open s) r moves)
    (hreads : r.unread.length < moves.countP Move.isRead) :
    (final (step codec crypto s) r moves).received = Session.framing.frames stream := by
  obtain ⟨c', h', hbound'⟩ := follows_run h moves hopen
  have hstart : bound c.reading r.unread ≤ r.unread.length + 1 := by
    unfold bound
    split
    · exact Nat.zero_le _
    · exact le_rfl
  have hended : c'.reading = none := by
    cases hreading : c'.reading with
    | none => rfl
    | some op =>
      rw [hreading] at hbound'
      have hpos : 1 ≤ bound (some op) (final (step codec crypto s) r moves).unread :=
        Nat.le_add_left _ _
      omega
  have hframes := h'.frames
  rw [hended] at hframes
  exact (List.append_nil _).symm.trans hframes

/-- A session that starts to read receives the payloads of the longest list of frames that the
stream starts with, and all of them if the stream is made of frames. -/
theorem read_loop_receives (codec : Codec) (crypto : Crypto) {sv : Server} {x : Session}
    (found : sv.sessions[s]? = some x) (hidle : x.handshaking = false)
    (hreading : x.reading = some .header) (stream : Bytes) (moves : List (Move s))
    (hopen : AllStates (step codec crypto s) (Open s) ⟨sv, stream, []⟩ moves)
    (hreads : stream.length < moves.countP Move.isRead) :
    Session.framing.Longest stream
        (final (step codec crypto s) ⟨sv, stream, []⟩ moves).received ∧
      ∀ payloads : List Bytes, (∀ p ∈ payloads, 1 ≤ p.length ∧ p.length ≤ Session.maxMessageSize) →
        stream = payloads.flatMap Session.frame →
        (final (step codec crypto s) ⟨sv, stream, []⟩ moves).received = payloads := by
  have hstart : Follows s stream ⟨sv, stream, []⟩ x.core := by
    refine ⟨core_of_sessions found, hidle, fun size hsize => ?_, ?_⟩
    · have hsize : x.reading = some (.payload size) := hsize
      rw [hreading] at hsize
      cases hsize
    · show [] ++ left x.reading stream = _
      rw [hreading]
      rfl
  have hreceived := received_eq_frames hstart moves hopen hreads
  refine ⟨hreceived ▸ Session.framing.longest_frames stream, fun payloads hfits hstream => ?_⟩
  have hframes := Session.framing.frames_flatMap hfits []
  rw [List.append_nil] at hframes
  rw [hreceived, hstream]
  refine hframes.trans ?_
  rw [Session.framing.frames_of_none (Session.framing.split_of_short (by decide)), List.append_nil]

end Loop

/-- A connected client that starts to read. -/
def helloServer : Server :=
  final (Server.step .proto3 (.ofSignatures [])) (Server.start ⟨10, 10, 10, []⟩ .empty)
    ([Event.accept (str "127.0.0.1"), .handshakeDone 0 true].map Event.atZero)

/-- Two frames and a length of zero. -/
def twoFrames : Bytes := Session.frame [1] ++ Session.frame [2, 3] ++ [0, 0, 0, 0, 7]

/-- The reads of the client, with another accept in between. -/
def twoFramesMoves : List (Move 0) :=
  .read Event.acceptError.atZero.draws :: .other Event.acceptError.atZero id ::
    List.replicate 16 (.read Event.acceptError.atZero.draws)

theorem read_loop_receives_twoFrames :
    Session.framing.Longest twoFrames (final (step .proto3 (.ofSignatures []) 0)
        ⟨helloServer, twoFrames, []⟩ twoFramesMoves).received ∧
      ∀ payloads : List Bytes, (∀ p ∈ payloads, 1 ≤ p.length ∧ p.length ≤ Session.maxMessageSize) →
        twoFrames = payloads.flatMap Session.frame →
        (final (step .proto3 (.ofSignatures []) 0) ⟨helloServer, twoFrames, []⟩
          twoFramesMoves).received = payloads := by
  have hstarts : (helloServer.sessions[0]?.any fun x =>
      !x.handshaking && x.reading == some .header) = true := by decide +kernel
  obtain ⟨x, found, hx⟩ := found_of_any hstarts
  rw [Bool.and_eq_true, Bool.not_eq_true', beq_iff_eq] at hx
  exact read_loop_receives .proto3 (.ofSignatures []) found hx.1 hx.2 twoFrames twoFramesMoves
    (by decide +kernel) (by decide +kernel)

end Reader

end Ircord
