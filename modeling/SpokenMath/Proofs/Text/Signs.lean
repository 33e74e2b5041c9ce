import SpokenMath.Text.Basic

/-!
# Signs

The characters of markup and the signs of operators on the keyboard, which a listener should never
hear. Words are free of them.
-/

namespace SpokenMath

/-- The characters of markup and the signs of operators on the keyboard. -/
def signs : Text := ['\\', '{', '}', '^', '_', '&', '~', '\x27', '+', '-', '=', '<', '>', '*', '/']

namespace Text

/-- No sign stands in a text. -/
def Unsigned (t : Text) : Prop := ∀ c ∈ t, c ∉ signs

instance (t : Text) : Decidable t.Unsigned :=
  decidable_of_iff (t.all (· ∉ signs) = true) (by simp [Unsigned])

/-- Nothing but letters, spaces and commas. -/
def isWords (t : Text) : Bool := t.all fun c => c.isAlpha || c == ' ' || c == ','

variable {s t : Text} {c : Char}

@[simp] theorem unsigned_nil : Unsigned [] := fun _ h => nomatch h

@[simp] theorem unsigned_cons : Unsigned (c :: t) ↔ c ∉ signs ∧ t.Unsigned :=
  List.forall_mem_cons

@[simp] theorem unsigned_append : Unsigned (s ++ t) ↔ s.Unsigned ∧ t.Unsigned :=
  List.forall_mem_append

@[simp] theorem unsigned_reverse : Unsigned t.reverse ↔ t.Unsigned := by
  simp [Unsigned]

theorem Unsigned.subset (h : t.Unsigned) (hsub : s ⊆ t) : s.Unsigned :=
  fun c hc => h c (hsub hc)

theorem unsigned_of_isWords (h : t.isWords = true) : t.Unsigned := by
  have hsigns : signs.all (fun c => !(c.isAlpha || c == ' ' || c == ',')) = true := by decide
  intro c hc hsign
  have hword := List.all_eq_true.mp h c hc
  have hnone := List.all_eq_true.mp hsigns c hsign
  rw [hword] at hnone
  cases hnone

end Text

end SpokenMath
