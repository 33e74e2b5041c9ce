import SpokenMath.Proofs.Pattern.SingleChar
import SpokenMath.Proofs.Rule.Passes

/-!
# What rules write

A rule **keeps a character out** if it does not write it into a text without it, and **clears** it
if it leaves no text with it. Rules for regular expressions hand over stretches of the text, so they
keep out every character that their replacements do not write of themselves (`keepsOut_pattern`). A
rule for one character that is replaced by a fixed text clears it (`clears_single`).
-/

namespace SpokenMath

namespace Rule

/-- A rule does not write a character into a text without it. -/
def KeepsOut (r : Rule) (x : Char) : Prop := ∀ t, x ∉ t → x ∉ r.rewriteAll t

/-- A rule leaves no text with a character. -/
def Clears (r : Rule) (x : Char) : Prop := ∀ t, x ∉ r.rewriteAll t

end Rule

namespace Replacement

/-- A replacement writes a character only where a group has it. -/
def Copies (f : Replacement) (x : Char) : Prop := ∀ c, x ∈ f.render c → ∃ g ∈ c.groups, x ∈ g

theorem mem_group {c : Captures} {n : Nat} {x : Char} (h : x ∈ c.group n) :
    ∃ g ∈ c.groups, x ∈ g := by
  cases n with
  | zero => cases h
  | succ n =>
    simp only [Captures.group, List.getD_eq_getElem?_getD] at h
    cases hg : c.groups[n]? with
    | none => simp [hg] at h
    | some g => exact ⟨g, List.mem_of_getElem? hg, by simpa [hg] using h⟩

/-- A template with its groups has characters of the template and of the groups. -/
theorem mem_expand {c : Captures} {t : Text} {x : Char} (h : x ∈ expand c t) :
    x ∈ t ∨ ∃ g ∈ c.groups, x ∈ g := by
  fun_induction expand c t with
  | case1 => cases h
  | case2 t ih =>
    rcases List.mem_cons.mp h with rfl | h
    · exact .inl List.mem_cons_self
    · exact (ih h).imp (fun h => List.mem_cons_of_mem _ (List.mem_cons_of_mem _ h)) id
  | case3 d t hd hdigit ih =>
    rcases List.mem_append.mp h with h | h
    · exact .inr (mem_group h)
    · exact (ih h).imp (fun h => List.mem_cons_of_mem _ (List.mem_cons_of_mem _ h)) id
  | case4 d t hd hdigit ih =>
    rcases List.mem_cons.mp h with rfl | h
    · exact .inl List.mem_cons_self
    · exact (ih h).imp (List.mem_cons_of_mem _) id
  | case5 y t hdollar hdigit ih =>
    rcases List.mem_cons.mp h with rfl | h
    · exact .inl List.mem_cons_self
    · exact (ih h).imp (List.mem_cons_of_mem _) id

theorem copies_template {s : String} {x : Char} (h : x ∉ s.toList) : (template s).Copies x :=
  fun _ hx => (mem_expand hx).resolve_left h

end Replacement

namespace Rule

variable {r : Rule} {p : Pattern} {x : Char}

/-- **A rule for a regular expression keeps out what its replacement only copies.** -/
theorem keepsOut_pattern (hp : r.matcher = .pattern p) (h : r.replacement.Copies x) :
    r.KeepsOut x := by
  intro t ht hx
  simp only [rewriteAll, hp] at hx
  rcases Program.mem_replaceAll hx with hx | ⟨m, hm, hx⟩
  · exact ht hx
  · obtain ⟨g, hg, hx⟩ := h _ hx
    exact ht (hm.groupsOf_subset p g hg hx)

/-- **A rule that puts a fixed text in the place of one character clears it.** -/
theorem clears_single {reads : Char → Bool} {w : Text} (hp : r.matcher = .pattern p)
    (hsingle : p.regex.Single reads) (hreads : reads x = true)
    (hw : ∀ c, r.replacement.render c = w) (hx : x ∉ w) : r.Clears x := by
  intro t hmem
  simp only [rewriteAll, hp, Pattern.replaceAll, p.program_eq,
    Program.replaceAll_single hsingle (fun _ => hw _), List.mem_flatMap] at hmem
  obtain ⟨y, -, hy⟩ := hmem
  unfold Program.exchange at hy
  split at hy
  · exact hx hy
  · next hy' =>
    rw [← List.mem_singleton.mp hy] at hy'
    exact hy' hreads

end Rule

/-! ## Lists of rules -/

theorem not_mem_rewriteThrough {rules : List Rule} {x : Char} (h : ∀ r ∈ rules, r.KeepsOut x)
    {t : Text} (ht : x ∉ t) : x ∉ rewriteThrough rules t := by
  induction rules generalizing t with
  | nil => exact ht
  | cons r rules ih =>
    obtain ⟨hr, hrules⟩ := List.forall_mem_cons.mp h
    exact ih hrules (hr t ht)

/-- A character that one rule clears and all later ones keep out is gone. -/
theorem not_mem_rewriteThrough_of_clears {before after : List Rule} {r : Rule} {x : Char}
    (hr : r.Clears x) (hafter : ∀ r ∈ after, r.KeepsOut x) (t : Text) :
    x ∉ rewriteThrough (before ++ r :: after) t := by
  rw [rewriteThrough_append, rewriteThrough_cons]
  exact not_mem_rewriteThrough hafter (hr _)

end SpokenMath
