import Mathlib.Algebra.BigOperators.Finprod
import Mathlib.Logic.Function.Basic

/-!
# Cabinets

A cabinet is a partial map from names to folders.  A folder has a cover, and pages under some of
its indices.  A page is only put into a folder that is there, and a folder is discarded with all of
its pages, so that a new folder under an old name has none.

A cabinet is determined by its covers and its pages (`Cabinet.ext`), and every operation is given by
what it does to both.
-/

namespace Filing

/-- The cover of a folder, and its pages. -/
structure Folder (γ ι δ : Type) where
  cover : γ
  page : ι → Option δ

/-- The folders by their names. -/
abbrev Cabinet (κ γ ι δ : Type) := κ → Option (Folder γ ι δ)

namespace Cabinet

variable {κ γ ι δ : Type}

/-- No folders. -/
def empty : Cabinet κ γ ι δ := fun _ => none

variable (c : Cabinet κ γ ι δ)

def cover (k : κ) : Option γ := (c k).map (·.cover)

def page (k : κ) (i : ι) : Option δ := (c k).bind (·.page i)

/-- What the pages of a folder weigh together. -/
noncomputable def weight (w : δ → ℕ) (k : κ) : ℕ := ∑ᶠ i, ((c.page k i).map w).getD 0

variable [DecidableEq κ]

/-- A new folder without pages, if the name is free. -/
def addFolder (k : κ) (g : γ) : Cabinet κ γ ι δ :=
  if (c.cover k).isSome then c else Function.update c k (some ⟨g, fun _ => none⟩)

/-- A page in a folder that is there, in place of an older one. -/
def putPage [DecidableEq ι] (k : κ) (i : ι) (d : δ) : Cabinet κ γ ι δ :=
  Function.update c k <| (c k).map fun f => { f with page := Function.update f.page i (some d) }

/-- Another cover for a folder that is there. -/
def changeCover (k : κ) (h : γ → γ) : Cabinet κ γ ι δ :=
  Function.update c k <| (c k).map fun f => { f with cover := h f.cover }

/-- Without the folders that satisfy `p`. -/
def discard (p : κ → γ → Bool) : Cabinet κ γ ι δ := fun k => (c k).filter fun f => !p k f.cover

variable {c} {c' : Cabinet κ γ ι δ} {k : κ}

omit [DecidableEq κ] in
theorem ext (hcover : ∀ k, c.cover k = c'.cover k) (hpage : ∀ k i, c.page k i = c'.page k i) :
    c = c' := by
  funext k
  have hk := hcover k
  have hpk := hpage k
  unfold cover at hk
  unfold page at hpk
  cases hc : c k with
  | none =>
    rw [hc, Option.map_none, eq_comm, Option.map_eq_none_iff] at hk
    exact hk.symm
  | some f =>
    cases hc' : c' k with
    | none =>
      rw [hc, hc'] at hk
      cases hk
    | some f' =>
      rw [hc, hc'] at hk hpk
      obtain ⟨g, page⟩ := f
      obtain ⟨g', page'⟩ := f'
      obtain rfl : g = g' := Option.some.inj hk
      obtain rfl : page = page' := funext hpk
      rfl

end Cabinet

end Filing
