import IrcordServer.Net.NicknameCases
import IrcordServer.Net.ReadLoop
import IrcordServer.Weave

/-!
# Writes to one socket

`Session::send` starts an `async_write` for its frame and does not wait for those before it.  Each
of them writes by `async_write_some`, in any order, as many bytes as the socket takes.  The frame
is a local of `send`: what is not written when `send` returns is read from freed memory.
-/

open Run

namespace Ircord

/-- A call of `Session::send`, an `async_write_some` of the call `k` that writes `n` bytes, or the
return of the call `k`, which destroys its frame. -/
inductive Write
  | send (env : Envelope)
  | writeSome (k n : ℕ)
  | returns (k : ℕ)

namespace Socket

/-- The frames of the calls on one session with what is on the socket, and the calls that have
returned.  A byte that was read from freed memory is `none`. -/
structure State where
  weave : Weave (Option UInt8)
  returned : List ℕ
  known : ∀ block ∈ weave.blocks, none ∉ block

def start : State := ⟨.empty, [], fun _ h => absurd h List.not_mem_nil⟩

def send (codec : Codec) (st : State) (env : Envelope) : State where
  weave := st.weave.step (.start ((Session.frame (codec.envelope.serialize env)).map some))
  returned := st.returned
  known block h := by
    rcases List.mem_append.1 h with h | h
    · exact st.known block h
    · rw [List.mem_singleton.1 h]
      simp

/-- The next `n` bytes of the call `k`, as its buffer has them. -/
def writeSome (st : State) (k n : ℕ) : State :=
  let bytes := (st.weave.next k n).map fun b => (k, if k ∈ st.returned then none else b)
  { st with weave := { st.weave with stream := st.weave.stream ++ bytes } }

variable (codec : Codec)

def step (st : State) : Write → State
  | .send env => send codec st env
  | .writeSome k n => writeSome st k n
  | .returns k =>
    if k < st.weave.blocks.length then { st with returned := k :: st.returned } else st

/-- The bytes written so far are the front of the frames of the calls in some order. -/
def FramesWhole (st : State) : Prop := st.weave.Whole

/-- Bytes are only written before their call returns, and while no other frame is begun and not
done. -/
def WritesInTurn (st : State) : Write → Prop
  | .writeSome k n =>
    (st.weave.next k n ≠ [] → k ∉ st.returned) ∧ st.weave.Alone (.write k n)
  | _ => True

/-- When all calls are done, the bytes are the frames of the calls in some order. -/
theorem bytes_of_framesWhole {st : State} (h : FramesWhole st)
    (hdone : st.weave.stream.length = (st.weave.blocks.map List.length).sum) :
    ∃ order : List ℕ, order.Perm (List.range st.weave.blocks.length) ∧
      st.weave.items = order.flatMap st.weave.block :=
  h.items_eq hdone

variable {st : State} {k n : ℕ}

theorem none_notMem_block (st : State) (k : ℕ) : none ∉ st.weave.block k := by
  unfold Weave.block
  cases hblock : st.weave.blocks[k]? with
  | none => exact List.not_mem_nil
  | some block => exact st.known block (List.mem_of_getElem? hblock)

/-- What is read from freed memory is in no frame. -/
theorem not_framesWhole_of_freed (h : (k, none) ∈ st.weave.stream) : ¬ FramesWhole st := by
  rintro ⟨order, -, hstream⟩
  obtain ⟨j, -, hmem⟩ := List.mem_flatMap.1 (hstream.subset h)
  obtain ⟨b, hb, e⟩ := List.mem_map.1 hmem
  obtain rfl : b = none := congrArg Prod.snd e
  exact none_notMem_block st j hb

theorem weave_writeSome (h : k ∉ st.returned) (n : ℕ) :
    (writeSome st k n).weave = st.weave.step (.write k n) := by
  unfold writeSome
  simp only [h, if_false]
  rfl

/-- Whatever is written out of turn tears a frame apart. -/
theorem not_framesWhole_of_not_inTurn {a : Write} (h : ¬ WritesInTurn st a) :
    ¬ FramesWhole (step codec st a) := by
  cases a with
  | send env => exact absurd trivial h
  | returns k => exact absurd trivial h
  | writeSome k n =>
    by_cases hreturned : k ∈ st.returned
    · have hnext : st.weave.next k n ≠ [] := by
        intro hnil
        exact h ⟨fun hne => absurd hnil hne, fun hne => absurd hnil hne⟩
      obtain ⟨b, rest, hcons⟩ := List.exists_cons_of_ne_nil hnext
      refine not_framesWhole_of_freed (k := k) ?_
      show (k, none) ∈ st.weave.stream ++
        (st.weave.next k n).map fun b => (k, if k ∈ st.returned then none else b)
      rw [hcons, List.map_cons, if_pos hreturned]
      exact List.mem_append_right _ List.mem_cons_self
    · have halone : ¬ st.weave.Alone (.write k n) := fun halone =>
        h ⟨fun _ => hreturned, halone⟩
      show ¬ (writeSome st k n).weave.Whole
      rw [weave_writeSome hreturned]
      exact Weave.not_whole_of_not_alone halone

/-- Writes in turn keep the frames one after the other. -/
theorem tidy_step {begun : List ℕ} (h : Weave.Tidy st.weave begun) {a : Write}
    (hturn : WritesInTurn st a) : ∃ begun', Weave.Tidy (step codec st a).weave begun' := by
  cases a with
  | send env => exact ⟨begun, h.start _⟩
  | returns k =>
    refine ⟨begun, ?_⟩
    unfold step
    dsimp only
    split_ifs <;> exact h
  | writeSome k n =>
    by_cases hreturned : k ∈ st.returned
    · -- nothing is left to write
      have hnext : st.weave.next k n = [] := by
        by_contra hne
        exact hturn.1 hne hreturned
      refine ⟨begun, ?_⟩
      show Weave.Tidy { st.weave with stream := st.weave.stream ++ (st.weave.next k n).map _ } begun
      rw [hnext, List.map_nil, List.append_nil]
      exact h
    · show ∃ begun', Weave.Tidy (writeSome st k n).weave begun'
      rw [weave_writeSome hreturned]
      exact h.write hturn.2

/-- The frames on the socket stay whole throughout a run exactly if bytes are only written before
their call returns, and while no other frame is begun and not done. -/
theorem frames_whole_iff (writes : List Write) :
    AllStates (step codec) FramesWhole start writes ↔
      AllSteps (step codec) WritesInTurn start writes := by
  constructor
  · intro hall
    refine hall.stepped.mono fun st a hwhole => ?_
    by_contra hturn
    exact not_framesWhole_of_not_inTurn codec hturn hwhole
  · intro hsteps
    have htidy : AllStates (step codec) (fun st => ∃ begun, Weave.Tidy st.weave begun) start
        writes := by
      refine .of_steps ⟨[], Weave.tidy_empty⟩ (fun st a h hturn => ?_) hsteps
      obtain ⟨begun, h⟩ := h
      exact tidy_step codec h hturn
    exact htidy.mono fun st ⟨_, h⟩ => h.whole

/-- A run that ends with a write out of turn. -/
theorem not_framesWhole_of_last (writes : List Write) {a : Write}
    (hturn : ¬ WritesInTurn (final (step codec) start writes) a) :
    ¬ AllStates (step codec) FramesWhole start (writes ++ [a]) := by
  intro hall
  have hwhole := hall.final
  rw [final_append] at hwhole
  exact not_framesWhole_of_not_inTurn codec hturn hwhole

/-- A call that returns before its frame is written completely tears it apart also when it is alone
on the socket. -/
theorem not_framesWhole_of_returned (env : Envelope) {m n : ℕ} (hn : 0 < n)
    (hopen : m < (Session.frame (codec.envelope.serialize env)).length) :
    ¬ AllStates (step codec) FramesWhole start
      [.send env, .writeSome 0 m, .returns 0, .writeSome 0 n] := by
  refine not_framesWhole_of_last codec [.send env, .writeSome 0 m, .returns 0] fun hturn => ?_
  refine hturn.1 ?_ List.mem_cons_self
  obtain ⟨frame, hframe⟩ : ∃ frame : List (Option UInt8),
      frame = (Session.frame (codec.envelope.serialize env)).map some := ⟨_, rfl⟩
  have hweave : (final (step codec) start [.send env, .writeSome 0 m, .returns 0]).weave =
      ⟨[frame], (frame.take m).map (0, ·)⟩ := by
    simp [final, step, send, writeSome, start, Weave.step, Weave.next, Weave.written, Weave.block,
      Weave.empty, hframe]
  have hcount : ((frame.take m).map ((0 : ℕ), ·)).countP (fun e => e.1 == 0) = m := by
    refine (List.countP_map.trans (List.countP_eq_length.2 fun _ _ => rfl)).trans ?_
    exact List.length_take_of_le (by rw [hframe, List.length_map]; exact hopen.le)
  show (final (step codec) start [.send env, .writeSome 0 m, .returns 0]).weave.next 0 n ≠ []
  rw [hweave]
  show (frame.drop (((frame.take m).map ((0 : ℕ), ·)).countP fun e => e.1 == 0)).take n ≠ []
  rw [hcount, Ne, ← List.length_eq_zero_iff, List.length_take, List.length_drop, hframe,
    List.length_map]
  omega

/-- A frame that is written to while another one is open. -/
theorem not_framesWhole_of_partly (writes : List Write) {j k n : ℕ}
    (hnext : (final (step codec) start writes).weave.next k n ≠ []) (hj : j ≠ k)
    (hpartly : (final (step codec) start writes).weave.Partly j) :
    ¬ AllStates (step codec) FramesWhole start (writes ++ [.writeSome k n]) :=
  not_framesWhole_of_last codec writes fun hturn => hturn.2 hnext j hj hpartly

/-- What the login of `alice` gives to `Session::send`. -/
def loginEnvelopes : List Envelope :=
  ((final (Server.step .proto3 Server.capitalCrypto) (Server.start ⟨10, 10, 10, []⟩ .empty)
    ((loginEvents 0 (str "alice") Server.aliceSignature).map Event.atZero)).written.filter
      fun e => e.1 == 0).map (·.2)

/-- A challenge, `AUTH_OK` and a presence message that does not wait for it.  The challenge is
written before `send` returns; of `AUTH_OK` some bytes are. -/
def loginWrites : List Write :=
  match loginEnvelopes with
  | challenge :: authOk :: presence :: _ =>
    [.send challenge, .writeSome 0 44, .returns 0, .send authOk, .writeSome 1 3, .returns 1,
      .send presence]
  | _ => []

/-- The presence message begins inside of `AUTH_OK`. -/
theorem not_framesWhole_loginWrites :
    ¬ AllStates (step .proto3) FramesWhole start (loginWrites ++ [.writeSome 2 2]) :=
  not_framesWhole_of_partly .proto3 loginWrites (by decide +kernel)
    (show 1 ≠ 2 by decide) ⟨by decide +kernel, by decide +kernel⟩

end Socket

end Ircord
