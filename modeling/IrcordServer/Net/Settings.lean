import IrcordServer.Decimal
import IrcordServer.Net.Step

/-!
# Settings that are changed while the server runs

The admin command `set_config` of `server.cpp` and the setters of the listener that it calls.  One
setter takes two limits at once; a wrong limit shows only when the first connection from a new
address comes in.
-/

open Run

namespace Ircord

/-- The parameters of a `set_config`. -/
structure SetConfig where
  key : Str
  value : Str

namespace Server

/-! ## The setters of the listener -/

def setRateLimits (sv : Server) (msgRatePerSec connRatePerMin : ℤ) : Server :=
  { sv with
    msgRatePerSec := msgRatePerSec
    connRatePerMin := connRatePerMin }

def setMaxConnections (sv : Server) (maxConnections : ℤ) : Server :=
  { sv with maxConnections := maxConnections }

def setMotd (sv : Server) (motd : Str) : Server := { sv with motd := motd }

/-- The branch `set_config` of `handle_admin_command`; a value that is no number ends it. -/
def setConfig (sv : Server) (c : SetConfig) : Server :=
  if c.key = str "max_connections" then
    match stoi c.value with
    | none => sv
    | some val => sv.setMaxConnections val
  else if c.key = str "msg_rate_per_sec" then
    match stoi c.value with
    | none => sv
    | some val => sv.setRateLimits val (-1)
  else if c.key = str "motd" then sv.setMotd c.value
  else sv

/-- What a command may change by its key. -/
def ChangesOnlyNamed (sv : Server) (c : SetConfig) : Prop :=
  if c.key = str "max_connections" then ∃ val, sv.setConfig c = { sv with maxConnections := val }
  else if c.key = str "msg_rate_per_sec" then
    ∃ val, sv.setConfig c = { sv with msgRatePerSec := val }
  else if c.key = str "motd" then ∃ val, sv.setConfig c = { sv with motd := val }
  else sv.setConfig c = sv

/-- As long as there is room, the first connection from an address gets a session. -/
def AdmitsNewIps (sv : Server) : Prop :=
  ∀ (d : Draws) (ip : Str), sv.ipRateMap.lookup ip = none →
    sv.activeConnections < sv.maxConnections → (sv.onAccept d ip).sessions = sv.sessions ++ [.new]

/-- The command is a change of the message rate, to a number. -/
def SetsMsgRate (c : SetConfig) : Prop :=
  c.key = str "msg_rate_per_sec" ∧ (stoi c.value).isSome

variable {sv : Server} {c : SetConfig}

/-- The events of a server run that are such commands. -/
theorem perform_setConfig (codec : Codec) (crypto : Crypto) (d : Draws) (sv : Server)
    (c : SetConfig) :
    sv.setConfig c = sv ∨ ∃ event, sv.setConfig c = sv.perform codec crypto d event := by
  unfold setConfig
  split_ifs
  · split
    · exact Or.inl rfl
    · rename_i val _
      exact Or.inr ⟨.setMaxConnections val, rfl⟩
  · split
    · exact Or.inl rfl
    · rename_i val _
      exact Or.inr ⟨.setMsgRate val, rfl⟩
  · exact Or.inr ⟨.setMotd c.value, rfl⟩
  · exact Or.inl rfl

/-! ## One command -/

theorem connRatePerMin_of_changesOnlyNamed (h : ChangesOnlyNamed sv c) :
    (sv.setConfig c).connRatePerMin = sv.connRatePerMin := by
  unfold ChangesOnlyNamed at h
  split_ifs at h
  · obtain ⟨val, e⟩ := h
    rw [e]
  · obtain ⟨val, e⟩ := h
    rw [e]
  · obtain ⟨val, e⟩ := h
    rw [e]
  · rw [h]

/-- The setter of the message rate sets the connection rate to -1 along with it. -/
theorem changesOnlyNamed_iff (hrate : 1 ≤ sv.connRatePerMin) :
    ChangesOnlyNamed sv c ↔ ¬ SetsMsgRate c := by
  by_cases hsets : SetsMsgRate c
  · obtain ⟨hkey, hvalue⟩ := hsets
    obtain ⟨val, hval⟩ := Option.isSome_iff_exists.1 hvalue
    have hminus : (sv.setConfig c).connRatePerMin = -1 := by
      unfold setConfig
      rw [if_neg (by rw [hkey]; decide), if_pos hkey, hval]
      rfl
    refine iff_of_false (fun h => ?_) (not_not_intro ⟨hkey, hvalue⟩)
    have hsame := connRatePerMin_of_changesOnlyNamed h
    omega
  · refine iff_of_true ?_ hsets
    unfold ChangesOnlyNamed setConfig
    split_ifs with hmax hrate hmotd
    · split
      · exact ⟨sv.maxConnections, rfl⟩
      · exact ⟨_, rfl⟩
    · have hnone : stoi c.value = none := by
        by_contra hsome
        exact hsets ⟨hrate, Option.ne_none_iff_isSome.1 hsome⟩
      rw [hnone]
      exact ⟨sv.msgRatePerSec, rfl⟩
    · exact ⟨c.value, rfl⟩
    · rfl

/-- A limiter that was made with a positive rate lets the first request through. -/
theorem allow_new {rate : ℤ} (window now : Time) (hrate : 1 ≤ rate) :
    ((RateLimiter.new rate window now).allow now).1 = true := by
  have hroom : ¬ (0 : ℤ) ≥ rate := by omega
  unfold RateLimiter.allow RateLimiter.new
  dsimp only
  split_ifs <;> rfl

theorem admitsNewIps_of_connRate (hrate : 1 ≤ sv.connRatePerMin) : AdmitsNewIps sv := by
  intro d ip hnew hroom
  unfold onAccept
  dsimp only
  rw [if_neg (not_le.2 hroom), hnew, Option.getD_none,
    if_neg (by simp [allow_new (minutes 1) d.now hrate])]

/-! ## Sequences of commands -/

/-- The commands of a sequence change only what they name, and the first connection from any address
is admitted all the time, exactly if none of them changes the message rate. -/
theorem settings_separate_iff (hrate : 1 ≤ sv.connRatePerMin) (cs : List SetConfig) :
    AllSteps setConfig ChangesOnlyNamed sv cs ∧ AllStates setConfig AdmitsNewIps sv cs ↔
      AllSteps setConfig (fun _ c => ¬ SetsMsgRate c) sv cs := by
  constructor
  · rintro ⟨honly, -⟩
    have hrates : AllStates setConfig (fun sv => 1 ≤ sv.connRatePerMin) sv cs :=
      .of_steps hrate (fun sv c h hc => by rwa [connRatePerMin_of_changesOnlyNamed hc]) honly
    exact honly.of_states hrates fun sv c h hc => (changesOnlyNamed_iff h).1 hc
  · intro hkeeps
    have hrates : AllStates setConfig (fun sv => 1 ≤ sv.connRatePerMin) sv cs :=
      .of_steps hrate (fun sv c h hc => by
        rwa [connRatePerMin_of_changesOnlyNamed ((changesOnlyNamed_iff h).2 hc)]) hkeeps
    exact ⟨hkeeps.of_states hrates fun sv c h hc => (changesOnlyNamed_iff h).2 hc,
      hrates.mono fun _ h => admitsNewIps_of_connRate h⟩

theorem settings_separate_iff_motd :
    AllSteps setConfig ChangesOnlyNamed (start ⟨10, 10, 10, []⟩ .empty)
          [⟨str "max_connections", str "50"⟩, ⟨str "motd", str "hi"⟩] ∧
        AllStates setConfig AdmitsNewIps (start ⟨10, 10, 10, []⟩ .empty)
          [⟨str "max_connections", str "50"⟩, ⟨str "motd", str "hi"⟩] ↔
      AllSteps setConfig (fun _ c => ¬ SetsMsgRate c) (start ⟨10, 10, 10, []⟩ .empty)
        [⟨str "max_connections", str "50"⟩, ⟨str "motd", str "hi"⟩] :=
  settings_separate_iff (by decide) _

/-- After `set_config msg_rate_per_sec 5` a first connection is turned away. -/
theorem not_admitsNewIps_msgRate :
    ¬ AllSteps setConfig ChangesOnlyNamed (start ⟨10, 10, 10, []⟩ .empty)
        [⟨str "msg_rate_per_sec", str "5"⟩] ∧
      ¬ AllStates setConfig AdmitsNewIps (start ⟨10, 10, 10, []⟩ .empty)
        [⟨str "msg_rate_per_sec", str "5"⟩] := by
  constructor
  · intro hall
    have hsame := connRatePerMin_of_changesOnlyNamed hall.1
    exact absurd hsame (by decide)
  · intro hall
    have hadmits := hall.final Event.acceptError.atZero.draws (str "127.0.0.1") rfl (by decide)
    have hlength := congrArg List.length hadmits
    exact absurd hlength (by decide)

end Server

end Ircord
