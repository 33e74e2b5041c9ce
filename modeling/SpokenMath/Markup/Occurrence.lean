import SpokenMath.Markup.Tag
import SpokenMath.Markup.Token

/-!
# Occurrences of commands and environments

Finds commands with their balanced arguments, and environments with their matching end, in a text
that need not be well formed. Backslashes are paired with the character behind them from left to
right, and what is paired in this way opens and closes nothing.

A **stretch** is a part of a text together with what follows it, so that its place in the text can
be told from the two alone.
-/

namespace SpokenMath

/-- A part of a text and what follows it there. -/
structure Stretch where
  text : Text
  rest : Text
  deriving DecidableEq, Repr

/-- Where a stretch of a text of this size begins and ends, in bytes. -/
def Stretch.span (size : Nat) (s : Stretch) : Nat × Nat :=
  (size - s.rest.size - s.text.size, size - s.rest.size)

namespace Occurrence

/-- What stands between delimiters of which `depth` are open, and what follows the last closing
one; the first is given in reverse. -/
def inside? (opening closing : Char) (depth : Nat) (read : Text) : Text → Option Stretch
  | [] => none
  | '\\' :: [] => none
  | '\\' :: c :: t => inside? opening closing depth (c :: '\\' :: read) t
  | c :: t =>
    if c = opening then inside? opening closing (depth + 1) (c :: read) t
    else if c = closing then
      if depth ≤ 1 then some ⟨read.reverse, t⟩
      else inside? opening closing (depth - 1) (c :: read) t
    else inside? opening closing depth (c :: read) t

/-- The inside of a group at the front of a text, and what follows the group. -/
def group? (opening closing : Char) : Text → Option Stretch
  | [] => none
  | c :: t => if c = opening ∧ c ≠ '\\' then inside? opening closing 1 [] t else none

/-- What follows the spaces at the front of a text. -/
def skipSpaces (t : Text) : Text := t.dropWhile (· == ' ')

theorem length_inside? {opening closing : Char} {depth : Nat} {read t : Text} {s : Stretch}
    (h : inside? opening closing depth read t = some s) :
    s.text.length + s.rest.length < read.length + t.length := by
  fun_induction inside? opening closing depth read t with
  | case1 => simp at h
  | case2 => simp at h
  | case5 =>
    simp only [Option.some.injEq] at h
    subst h
    simp only [List.length_reverse, List.length_cons]
    omega
  | _ =>
    rename_i ih
    have := ih h
    simp only [List.length_cons] at this ⊢
    omega

/-- A group is longer than its inside and what follows it together. -/
theorem length_group? {opening closing : Char} {t : Text} {s : Stretch}
    (h : group? opening closing t = some s) : s.text.length + s.rest.length < t.length := by
  unfold group? at h
  split at h
  · simp at h
  · split at h
    · have := length_inside? h
      simp only [List.length_nil, List.length_cons] at this ⊢
      omega
    · simp at h

end Occurrence

/-- A command with its arguments, found in a text. -/
structure CommandUse where
  /-- From the backslash to the end of the last argument. -/
  whole : Stretch
  /-- The inside of the bracketed argument, if there is one. -/
  optional : Option Stretch
  /-- The insides of the braced arguments. -/
  args : List Stretch
  deriving DecidableEq, Repr

namespace CommandUse

open Occurrence

/-- The insides of `n` braced groups with nothing but spaces between them, and what follows. -/
def groups? : Nat → Text → Option (List Stretch × Text)
  | 0, t => some ([], t)
  | n + 1, t => do
    let s ← group? '{' '}' (skipSpaces t)
    let (ss, rest) ← groups? n s.rest
    some (⟨s.text, '}' :: s.rest⟩ :: ss, rest)

theorem length_groups? {n : Nat} {t rest : Text} {args : List Stretch}
    (h : groups? n t = some (args, rest)) :
    rest.length ≤ t.length ∧ ∀ a ∈ args, a.text.length < t.length := by
  induction n generalizing t args with
  | zero =>
    simp only [groups?, Option.some.injEq, Prod.mk.injEq] at h
    obtain ⟨rfl, rfl⟩ := h
    simp
  | succ n ih =>
    simp only [groups?, Option.bind_eq_bind, Option.bind_eq_some_iff] at h
    obtain ⟨s, hs, ⟨ss, rest'⟩, hss, h⟩ := h
    simp only [Option.some.injEq, Prod.mk.injEq] at h
    obtain ⟨rfl, rfl⟩ := h
    have h₁ := length_group? hs
    have h₂ := length_dropWhile_le (· == ' ') t
    have h₃ := ih hss
    unfold skipSpaces at h₁
    refine ⟨by omega, fun a ha => ?_⟩
    rcases List.mem_cons.mp ha with rfl | ha
    · show s.text.length < t.length
      omega
    · have := h₃.2 a ha
      omega

/-- The arguments behind a name: a bracketed one, if there is one, and `arity` braced ones, with
what follows. A command without braced arguments ends with its name. -/
def arguments? (arity : Nat) (t : Text) :
    Option (Option Stretch × List Stretch × Text) :=
  let (optional, behind) := match group? '[' ']' (skipSpaces t) with
    | some s => (some ⟨s.text, ']' :: s.rest⟩, skipSpaces s.rest)
    | none => (none, skipSpaces t)
  if arity = 0 then some (optional, [], t)
  else (groups? arity behind).map fun (args, rest) => (optional, args, rest)

theorem length_arguments? {arity : Nat} {t rest : Text} {optional : Option Stretch}
    {args : List Stretch} (h : arguments? arity t = some (optional, args, rest)) :
    rest.length ≤ t.length ∧ ∀ a ∈ args, a.text.length < t.length := by
  have hspaces : ∀ u : Text, (skipSpaces u).length ≤ u.length := length_dropWhile_le _
  unfold arguments? at h
  split at h
  next optional' behind hbehind =>
  have hle : behind.length ≤ t.length := by
    split at hbehind
    · next s hs =>
      simp only [Prod.mk.injEq] at hbehind
      have h₁ := length_group? hs
      have h₂ := hspaces t
      have h₃ := hspaces s.rest
      rw [← hbehind.2]
      omega
    · simp only [Prod.mk.injEq] at hbehind
      rw [← hbehind.2]
      exact hspaces t
  split at h
  · simp only [Option.some.injEq, Prod.mk.injEq] at h
    obtain ⟨-, rfl, rfl⟩ := h
    simp
  · simp only [Option.map_eq_some_iff, Prod.mk.injEq] at h
    obtain ⟨⟨args', rest'⟩, hg, -, rfl, rfl⟩ := h
    have h₁ := length_groups? hg
    exact ⟨Nat.le_trans h₁.1 hle, fun a ha => Nat.lt_of_lt_of_le (h₁.2 a ha) hle⟩

/-- The name behind a backslash is this one: it stands there, and no ASCII letter follows. -/
def behindName? (name t : Text) : Option Text :=
  match Text.dropPrefix? name t with
  | some rest => if rest.head?.any Char.isAlpha then none else some rest
  | none => none

theorem length_behindName? {name t rest : Text} (h : behindName? name t = some rest) :
    rest.length ≤ t.length := by
  unfold behindName? at h
  split at h
  · next r hr =>
    have := Text.length_dropPrefix? hr
    split at h <;> simp_all
  · simp at h

/-- What stands before the rest of a text. -/
def upTo (t rest : Text) : Text := t.take (t.length - rest.length)

/-- The use of a command at the front of a text. -/
def at? (name : Text) (arity : Nat) : Text → Option CommandUse
  | '\\' :: t =>
    match behindName? name t with
    | some behind =>
      (arguments? arity behind).map fun (optional, args, rest) =>
        ⟨⟨upTo ('\\' :: t) rest, rest⟩, optional, args⟩
    | none => none
  | _ => none

/-- The first use of a command. A name without its arguments is passed over, and so is any other
backslash with the character behind it. -/
def find? (name : Text) (arity : Nat) : Text → Option CommandUse
  | [] => none
  | '\\' :: t =>
    match at? name arity ('\\' :: t) with
    | some use => some use
    | none =>
      match _h : behindName? name t with
      | some behind => find? name arity behind
      | none => find? name arity (t.drop 1)
  | _ :: t => find? name arity t
termination_by t => t.length
decreasing_by
  · have := length_behindName? _h
    simp only [List.length_cons]
    omega
  · simp only [List.length_cons, List.length_drop]
    omega
  · simp

/-- What follows a use, and every argument in it, is shorter than the text. -/
theorem length_at? {name : Text} {arity : Nat} {t : Text} {u : CommandUse}
    (h : at? name arity t = some u) :
    u.whole.rest.length < t.length ∧ ∀ a ∈ u.args, a.text.length < t.length := by
  unfold at? at h
  split at h
  · split at h
    · next behind hb =>
      simp only [Option.map_eq_some_iff] at h
      obtain ⟨⟨optional, args, rest⟩, ha, rfl⟩ := h
      have h₁ := length_behindName? hb
      have h₂ := length_arguments? ha
      simp only [List.length_cons]
      exact ⟨by omega, fun a ha => by have := h₂.2 a ha; omega⟩
    · simp at h
  · simp at h

/-- What follows the first use, and every argument in it, is shorter than the text. -/
theorem length_find? {name : Text} {arity : Nat} {t : Text} {u : CommandUse}
    (h : find? name arity t = some u) :
    u.whole.rest.length < t.length ∧ ∀ a ∈ u.args, a.text.length < t.length := by
  fun_induction find? name arity t with
  | case1 => simp at h
  | case2 t use ha =>
    simp only [Option.some.injEq] at h
    subst h
    exact length_at? ha
  | case3 t _ behind hb ih =>
    have := ih h
    have := length_behindName? hb
    simp only [List.length_cons]
    exact ⟨by omega, fun a ha => by have := (ih h).2 a ha; omega⟩
  | case4 t _ _ ih =>
    have := ih h
    have hd : (t.drop 1).length ≤ t.length := by simp
    simp only [List.length_cons]
    exact ⟨by omega, fun a ha => by have := (ih h).2 a ha; omega⟩
  | case5 c t _ ih =>
    have := ih h
    simp only [List.length_cons]
    exact ⟨by omega, fun a ha => by have := (ih h).2 a ha; omega⟩

end CommandUse

/-- An environment found in a text. -/
structure EnvironmentUse where
  /-- From the backslash that opens it to the brace that closes it. -/
  whole : Stretch
  name : Stretch
  body : Stretch
  deriving DecidableEq, Repr

namespace EnvironmentUse

/-- The body of an environment of which `depth` of this name are open, and what follows its closing
tag; the part of the body that is read already is given in reverse. -/
def body? (name : Text) (depth : Nat) (read : Text) (t : Text) : Option Stretch :=
  match t with
  | [] => none
  | c :: rest =>
    match _h : Text.dropPrefix? (Tag.opening name) (c :: rest) with
    | some behind => body? name (depth + 1) ((Tag.opening name).reverse ++ read) behind
    | none =>
      match _h : Text.dropPrefix? (Tag.closing name) (c :: rest) with
      | some behind =>
        if depth ≤ 1 then some ⟨read.reverse, behind⟩
        else body? name (depth - 1) ((Tag.closing name).reverse ++ read) behind
      | none => body? name depth (c :: read) rest
termination_by t.length
decreasing_by
  · have := Text.length_dropPrefix? _h
    have := Tag.length_opening name
    omega
  · have := Text.length_dropPrefix? _h
    have := Tag.length_closing name
    omega
  · simp

/-- The first environment with one of these names that has a matching end. -/
def find? (names : List Text) (t : Text) : Option EnvironmentUse :=
  match t with
  | [] => none
  | c :: rest =>
    match _h : Text.dropPrefix? Tag.openingMark (c :: rest) with
    | none => find? names rest
    | some behind =>
      let name := behind.takeWhile (· != '}')
      match _h' : behind.dropWhile (· != '}') with
      | [] => none
      | brace :: after =>
        match if names.contains name then body? name 1 [] after else none with
        | some b =>
          some {
            whole := ⟨Tag.opening name ++ b.text ++ Tag.closing name, b.rest⟩
            name := ⟨name, brace :: after⟩
            body := ⟨b.text, Tag.closing name ++ b.rest⟩ }
        | none => find? names (brace :: after)
termination_by t.length
decreasing_by
  · simp
  · have h₁ := Text.length_dropPrefix? _h
    have h₂ := length_dropWhile_le (· != '}') behind
    rw [_h'] at h₂
    have h₃ : Tag.openingMark.length = 7 := rfl
    omega

/-- What follows the body of an environment is shorter than the text behind its opening tag. -/
theorem length_body? {name : Text} {depth : Nat} {read t : Text} {s : Stretch}
    (h : body? name depth read t = some s) : s.rest.length < t.length := by
  fun_induction body? name depth read t with
  | case1 => simp at h
  | case2 =>
    next hb ih =>
    have := ih h
    have := Text.length_dropPrefix? hb
    omega
  | case3 =>
    next hb _ =>
    simp only [Option.some.injEq] at h
    subst h
    have := Text.length_dropPrefix? hb
    have := Tag.length_closing name
    simp only
    omega
  | case4 =>
    next hb _ ih =>
    have := ih h
    have := Text.length_dropPrefix? hb
    omega
  | case5 =>
    next ih =>
    have := ih h
    simp only [List.length_cons]
    omega

/-- What follows the first environment is shorter than the text. -/
theorem length_find? {names : List Text} {t : Text} {u : EnvironmentUse}
    (h : find? names t = some u) : u.whole.rest.length < t.length := by
  fun_induction find? names t with
  | case1 => simp at h
  | case2 =>
    next ih =>
    have := ih h
    simp only [List.length_cons]
    omega
  | case3 => simp at h
  | case4 c rest behind hb name brace after hd b hbody =>
    simp only [Option.some.injEq] at h
    subst h
    have h₁ := Text.length_dropPrefix? hb
    have h₂ := length_dropWhile_le (· != '}') behind
    rw [hd] at h₂
    simp only [List.length_cons] at h₁ h₂ ⊢
    split at hbody
    · have := length_body? hbody
      omega
    · simp at hbody
  | case5 c rest behind hb name brace after hd hbody ih =>
    have := ih h
    have h₁ := Text.length_dropPrefix? hb
    have h₂ := length_dropWhile_le (· != '}') behind
    rw [hd] at h₂
    omega

end EnvironmentUse

end SpokenMath
