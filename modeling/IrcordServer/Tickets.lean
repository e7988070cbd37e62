import Mathlib.Data.Nat.Notation

/-!
# Tickets that are handed out once

Numbered tickets are put into a stock and taken out of it, and some are dropped.  Nothing here says
how the stock is kept: a stock is the list of its tickets (`available`), with the last number given
out and the events so far, newest first.
-/

namespace Tickets

variable {ρ α β : Type}

inductive Event (ρ α β : Type)
  | put (giver : α) (number : ℕ) (ticket : ρ)
  | take (taker : β) (number : ℕ) (ticket : ρ)
  | drop (numbers : List ℕ)

/-- The ticket with this number is gone after the event. -/
def Event.Spends : Event ρ α β → ℕ → Prop
  | .put _ _ _, _ => False
  | .take _ number _, n => n = number
  | .drop numbers, n => n ∈ numbers

/-- The event is about the ticket with this number. -/
def Event.Mentions : Event ρ α β → ℕ → Prop
  | .put _ number _, n => n = number
  | .take _ number _, n => n = number
  | .drop numbers, n => n ∈ numbers

/-- The ticket was taken or dropped. -/
def Spent (events : List (Event ρ α β)) (n : ℕ) : Prop := ∃ e ∈ events, e.Spends n

/-- A number is given out once; what was taken had been put in, and was not spent before. -/
def Once : List (Event ρ α β) → Prop
  | [] => True
  | .put _ n _ :: events => (∀ a r, .put a n r ∉ events) ∧ Once events
  | .take _ n r :: events => (∃ a, .put a n r ∈ events) ∧ ¬ Spent events n ∧ Once events
  | .drop _ :: events => Once events

/-- Those who took a ticket, the last one first. -/
def takers (events : List (Event ρ α β)) : List β :=
  events.filterMap fun
    | .take b _ _ => some b
    | _ => none

/-- The stock agrees with the events. -/
structure Stock (available : List (ℕ × ρ)) (last : ℕ) (events : List (Event ρ α β)) : Prop where
  stored : ∀ t ∈ available, ∃ a, .put a t.1 t.2 ∈ events
  unspent : ∀ t ∈ available, ¬ Spent events t.1
  le_last : ∀ e ∈ events, ∀ n, e.Mentions n → n ≤ last
  once : Once events

theorem stock_empty : Stock ([] : List (ℕ × ρ)) 0 ([] : List (Event ρ α β)) where
  stored _ h := absurd h List.not_mem_nil
  unspent _ h := absurd h List.not_mem_nil
  le_last _ h := absurd h List.not_mem_nil
  once := trivial

theorem spent_cons {e : Event ρ α β} {events : List (Event ρ α β)} {n : ℕ} :
    Spent (e :: events) n ↔ e.Spends n ∨ Spent events n := by
  simp only [Spent, List.mem_cons, exists_eq_or_imp]

theorem Event.mentions_of_spends {e : Event ρ α β} {n : ℕ} (h : e.Spends n) : e.Mentions n := by
  cases e with
  | put giver number ticket => exact h.elim
  | take taker number ticket => exact h
  | drop numbers => exact h

variable {available available' : List (ℕ × ρ)} {last : ℕ} {events : List (Event ρ α β)}

namespace Stock

theorem number_le_last (h : Stock available last events) {t : ℕ × ρ} (ht : t ∈ available) :
    t.1 ≤ last := by
  obtain ⟨a, hput⟩ := h.stored t ht
  exact h.le_last _ hput t.1 rfl

/-- A ticket with a new number is put in. -/
theorem put (h : Stock available last events) (a : α) (r : ρ)
    (hsub : ∀ t ∈ available', t ∈ available ∨ t = (last + 1, r)) :
    Stock available' (last + 1) (.put a (last + 1) r :: events) where
  stored t ht := by
    rcases hsub t ht with ht | rfl
    · obtain ⟨a', hput⟩ := h.stored t ht
      exact ⟨a', List.mem_cons_of_mem _ hput⟩
    · exact ⟨a, List.mem_cons_self⟩
  unspent t ht hspent := by
    rcases spent_cons.1 hspent with hspent | hspent
    · exact hspent
    · rcases hsub t ht with ht | rfl
      · exact h.unspent t ht hspent
      · obtain ⟨e, he, hspends⟩ := hspent
        have hle := h.le_last e he _ (Event.mentions_of_spends hspends)
        exact Nat.not_succ_le_self _ hle
  le_last e he n hn := by
    rcases List.mem_cons.1 he with rfl | he
    · exact Nat.le_of_eq hn
    · exact Nat.le_succ_of_le (h.le_last e he n hn)
  once := by
    refine ⟨fun a' r' hput => ?_, h.once⟩
    have hle := h.le_last _ hput (last + 1) rfl
    exact Nat.not_succ_le_self _ hle

/-- A ticket that is available is taken out. -/
theorem take (h : Stock available last events) (b : β) {n : ℕ} {r : ρ} (hn : (n, r) ∈ available)
    (hsub : ∀ t ∈ available', t ∈ available ∧ t.1 ≠ n) :
    Stock available' last (.take b n r :: events) where
  stored t ht := by
    obtain ⟨a, hput⟩ := h.stored t (hsub t ht).1
    exact ⟨a, List.mem_cons_of_mem _ hput⟩
  unspent t ht hspent := by
    obtain ⟨hmem, hne⟩ := hsub t ht
    rcases spent_cons.1 hspent with hspent | hspent
    · exact hne hspent
    · exact h.unspent t hmem hspent
  le_last e he m hm := by
    rcases List.mem_cons.1 he with rfl | he
    · rw [show m = n from hm]
      exact h.number_le_last hn
    · exact h.le_last e he m hm
  once := ⟨h.stored _ hn, h.unspent _ hn, h.once⟩

/-- Some numbers, none of them new, are dropped. -/
theorem drop (h : Stock available last events) {ns : List ℕ} (hle : ∀ n ∈ ns, n ≤ last)
    (hsub : ∀ t ∈ available', t ∈ available ∧ t.1 ∉ ns) :
    Stock available' last (.drop ns :: events) where
  stored t ht := by
    obtain ⟨a, hput⟩ := h.stored t (hsub t ht).1
    exact ⟨a, List.mem_cons_of_mem _ hput⟩
  unspent t ht hspent := by
    obtain ⟨hmem, hnot⟩ := hsub t ht
    rcases spent_cons.1 hspent with hspent | hspent
    · exact hnot hspent
    · exact h.unspent t hmem hspent
  le_last e he m hm := by
    rcases List.mem_cons.1 he with rfl | he
    · exact hle m hm
    · exact h.le_last e he m hm
  once := h.once

end Stock

end Tickets
