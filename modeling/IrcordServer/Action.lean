import IrcordServer.Messages

/-!
# What components do to sessions

The command handler and the voice rooms write envelopes to sessions and close them.  Such a call
returns its actions in order, for the server to carry out.
-/

namespace Ircord

/-- An envelope written to a session, or a call of `Session::disconnect`. -/
inductive Action
  | send (session : SessionId) (env : Envelope)
  | disconnect (session : SessionId) (reason : Str)
  deriving DecidableEq

namespace Action

/-- The session an action is about. -/
def session : Action → SessionId
  | send session _ => session
  | disconnect session _ => session

/-- All actions are about sessions with the property `P`. -/
def About (P : SessionId → Prop) (actions : List Action) : Prop := ∀ a ∈ actions, P a.session

variable {P Q : SessionId → Prop} {as : List Action}

theorem About.mono (h : About P as) (hPQ : ∀ s, P s → Q s) : About Q as :=
  fun a ha => hPQ _ (h a ha)

/-- A fold that only appends actions with `P` collects no others. -/
theorem forall_mem_foldl {α β : Type} {P : Action → Prop}
    {f : α × List Action → β → α × List Action}
    (hf : ∀ acc b, (∀ a ∈ acc.2, P a) → ∀ a ∈ (f acc b).2, P a) (bs : List β)
    (acc : α × List Action) (hacc : ∀ a ∈ acc.2, P a) : ∀ a ∈ (bs.foldl f acc).2, P a := by
  induction bs generalizing acc with
  | nil => exact hacc
  | cons b bs ih => exact ih _ (hf acc b hacc)

end Action

/-- A session that is found for some user. -/
def Found (findSession : Str → Option SessionId) (session : SessionId) : Prop :=
  ∃ userId, findSession userId = some session

end Ircord
