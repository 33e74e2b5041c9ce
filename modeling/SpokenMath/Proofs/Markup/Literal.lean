import SpokenMath.Proofs.Markup.Proper

/-!
# Reading literal text

A run of literal characters is read as one leaf, or goes on with the leaf before it, however the
tokens cut it: a bracket is a token of its own, and a run of the text may begin in one piece of the
text and end in the next (`reads_run`). The base of a script is taken off that leaf again, and what
was there before is left as it was (`Ready.popBase`).
-/

namespace SpokenMath

open Node

namespace Reading

variable {stop : Stop} {acc ns : List Node} {t run : Text} {rest : List Token}

/-- The nodes with literal text behind them; there may be none. -/
def write (run : Text) (acc : List Node) : List Node :=
  if run.isEmpty then acc else pushText run acc

@[simp] theorem write_nil (acc : List Node) : write [] acc = acc := rfl

theorem pushText_pushText (s r : Text) (acc : List Node) :
    pushText r (pushText s acc) = pushText (s ++ r) acc := by
  unfold pushText
  cases acc with
  | nil => rfl
  | cons n acc => cases n <;> simp

theorem write_pushText (s r : Text) (acc : List Node) :
    write r (pushText s acc) = pushText (s ++ r) acc := by
  cases r with
  | nil => rw [write_nil, List.append_nil]
  | cons c r => exact pushText_pushText s (c :: r) acc

/-- Text in front of a run belongs to it. -/
theorem reads_plain {c : Char} (hc : Token.isPlain c = true)
    (h : Reads (.nodes stop (pushText [c] acc)) (tokenize t) ns rest) :
    Reads (.nodes stop acc) (tokenize (c :: t)) ns rest := by
  rw [tokenize_plain hc]
  cases t with
  | nil => exact .literal rfl (by simpa using h)
  | cons d t =>
    cases hd : Token.isPlain d with
    | false =>
      rw [List.takeWhile_cons_of_neg (by simp [hd]), List.dropWhile_cons_of_neg (by simp [hd])]
      exact .literal rfl h
    | true =>
      rw [List.takeWhile_cons_of_pos hd, List.dropWhile_cons_of_pos hd]
      rw [tokenize_plain hd] at h
      cases h with
      | literal hrun hrest =>
        obtain rfl := Option.some.inj hrun
        rw [pushText_pushText] at hrest
        exact .literal rfl hrest
      | marks hmark => exact absurd hmark (by simp)

theorem reads_literal {c : Char} (hc : IsLiteral c) (hbracket : stop = .atBracket → c ≠ ']')
    (h : Reads (.nodes stop (pushText [c] acc)) (tokenize t) ns rest) :
    Reads (.nodes stop acc) (tokenize (c :: t)) ns rest := by
  rcases hc with hc | rfl | rfl
  · exact reads_plain hc h
  · rw [tokenize_openBracket]
    exact .literal rfl h
  · rw [tokenize_closeBracket]
    exact .literal (if_neg fun hstop => hbracket hstop rfl) h

/-- **A run of literal characters is read as literal text.** -/
theorem reads_run (hrun : ∀ c ∈ run, IsLiteral c) (hbracket : stop = .atBracket → ']' ∉ run)
    (h : Reads (.nodes stop (write run acc)) (tokenize t) ns rest) :
    Reads (.nodes stop acc) (tokenize (run ++ t)) ns rest := by
  induction run generalizing acc with
  | nil => exact h
  | cons c run ih =>
    obtain ⟨hc, hrun⟩ := List.forall_mem_cons.mp hrun
    refine reads_literal hc (fun hstop heq => hbracket hstop (heq ▸ List.mem_cons_self)) ?_
    refine ih hrun (fun hstop hmem => hbracket hstop (List.mem_cons_of_mem c hmem)) ?_
    rw [write_pushText]
    exact h

/-! ## Bases of scripts -/

/-- A base may be read behind these nodes: no leaf is empty, and a number does not go on with the
digits of another one. -/
structure Ready (acc : List Node) (base : Text) : Prop where
  filled : ∀ t, acc.head? = some (leaf t) → t ≠ []
  apart : (∃ c ∈ base, c.isDigit = true) →
    ∀ t, acc.head? = some (leaf t) → ∀ c ∈ t.getLast?, c.isDigit = false

theorem popBase_leaf {base before : Text} (hbase : IsBase base)
    (hbefore : (∃ c ∈ base, c.isDigit = true) → ∀ c ∈ before.getLast?, c.isDigit = false)
    (nodes : List Node) : popBase (leaf (before ++ base) :: nodes) =
      (leaf base, if before.isEmpty then nodes else leaf before :: nodes) := by
  rcases hbase with ⟨c, rfl, hblank, hdigit⟩ | ⟨hne, hdigits⟩
  · have hdrop : (c :: before.reverse).dropWhile isBlank = c :: before.reverse :=
      List.dropWhile_cons_of_neg (by simp [hblank])
    have htake : (c :: before.reverse).takeWhile Char.isDigit = [] :=
      List.takeWhile_cons_of_neg (by simp [hdigit])
    simp only [popBase, List.reverse_append, List.reverse_singleton, List.singleton_append, hdrop,
      htake, List.isEmpty_nil, if_true, List.isEmpty_reverse, List.reverse_reverse]
  · have hreverse : ∀ c ∈ base.reverse, c.isDigit = true := fun c hc =>
      hdigits c (List.mem_reverse.mp hc)
    obtain ⟨d, digits, hd⟩ := List.exists_cons_of_ne_nil (List.reverse_ne_nil_iff.mpr hne)
    have hdigit : d.isDigit = true := hreverse d (hd ▸ List.mem_cons_self)
    have hlast : ∀ c ∈ before.reverse.head?, c.isDigit = false := by
      rw [List.head?_reverse]
      exact hbefore ⟨d, List.mem_reverse.mp (hd ▸ List.mem_cons_self), hdigit⟩
    have hdrop : (d :: (digits ++ before.reverse)).dropWhile isBlank =
        d :: (digits ++ before.reverse) :=
      List.dropWhile_cons_of_neg (by simp [not_blank_of_isDigit hdigit])
    have htake : (d :: (digits ++ before.reverse)).takeWhile Char.isDigit = base.reverse := by
      rw [← List.cons_append, ← hd, takeWhile_append_of_head hreverse hlast]
    have hrest : (d :: (digits ++ before.reverse)).dropWhile Char.isDigit = before.reverse := by
      rw [← List.cons_append, ← hd, dropWhile_append_of_head hreverse hlast]
    have hbase : (d :: digits).reverse = base := by rw [← hd, List.reverse_reverse]
    simp only [popBase, List.reverse_append, hd, List.cons_append, hdrop, htake, hrest]
    simp [← hbase]

/-- A base is taken off the end, as it was read. -/
theorem Ready.popBase {base : Text} (h : Ready acc base) (hbase : IsBase base) :
    popBase (pushText base acc) = (leaf base, acc) := by
  unfold pushText
  split
  · next before nodes =>
    rw [popBase_leaf hbase fun hdigit => h.apart hdigit before rfl,
      if_neg (by simpa using h.filled before rfl)]
  · have hleaf : Reading.popBase (leaf ([] ++ base) :: acc) = (leaf base, acc) :=
      popBase_leaf hbase (by simp) acc
    exact hleaf

end Reading

end SpokenMath
