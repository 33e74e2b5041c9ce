import SpokenMath.Proofs.Text.Basic
import SpokenMath.Rule.Basic

/-!
# Rewriting a command piece by piece

A rule for a command goes through a text from left to right. What is no use of the command is left
as it is (`rewriteCommands_cons`, `rewriteCommands_escape`, `rewriteCommands_word`), and a use with
**balanced** arguments is replaced as a whole (`rewriteCommands_use`). So the text may be taken
apart at these places, and rewritten piece by piece.
-/

namespace SpokenMath

open Occurrence CommandUse

/-! ## Balanced texts -/

/-- Braces in the text open and close in pairs, so that a search for a closing brace that begins in
front of the text goes on behind it as it was. -/
def Balanced (a : Text) : Prop :=
  ∀ depth read t, 0 < depth →
    inside? '{' '}' depth read (a ++ t) = inside? '{' '}' depth (a.reverse ++ read) t

theorem inside?_cons {opening closing c : Char} (h : c ≠ '\\') (depth : Nat) (read t : Text) :
    inside? opening closing depth read (c :: t) =
      if c = opening then inside? opening closing (depth + 1) (c :: read) t
      else if c = closing then
        if depth ≤ 1 then some ⟨read.reverse, t⟩
        else inside? opening closing (depth - 1) (c :: read) t
      else inside? opening closing depth (c :: read) t := by
  rw [inside?]
  · exact fun hc _ => h hc
  · exact fun _ _ hc _ => h hc

namespace Balanced

variable {a b : Text}

theorem nil : Balanced [] := fun _ _ _ _ => rfl

theorem append (ha : Balanced a) (hb : Balanced b) : Balanced (a ++ b) := by
  intro depth read t hdepth
  rw [List.append_assoc, ha depth read _ hdepth, hb depth _ t hdepth, List.reverse_append,
    List.append_assoc]

/-- A character that is neither a brace nor a backslash. -/
theorem single {c : Char} (hbackslash : c ≠ '\\') (hopen : c ≠ '{') (hclose : c ≠ '}') :
    Balanced [c] := by
  intro depth read t _
  rw [List.singleton_append, inside?_cons hbackslash, if_neg hopen, if_neg hclose]
  rfl

/-- A backslash and the character behind it. -/
theorem escape (c : Char) : Balanced ['\\', c] := fun _ _ _ _ => rfl

theorem of_forall (h : ∀ c ∈ a, c ≠ '\\' ∧ c ≠ '{' ∧ c ≠ '}') : Balanced a := by
  induction a with
  | nil => exact nil
  | cons c a ih =>
    obtain ⟨⟨hbackslash, hopen, hclose⟩, ha⟩ := List.forall_mem_cons.mp h
    exact append (single hbackslash hopen hclose) (ih ha)

theorem braces (h : Balanced a) : Balanced ('{' :: (a ++ ['}'])) := by
  intro depth read t hdepth
  have hopen : inside? '{' '}' depth read ('{' :: (a ++ ['}']) ++ t) =
      inside? '{' '}' (depth + 1) ('{' :: read) (a ++ '}' :: t) := by
    simp [inside?]
  have hclose : inside? '{' '}' (depth + 1) (a.reverse ++ '{' :: read) ('}' :: t) =
      inside? '{' '}' depth ('}' :: (a.reverse ++ '{' :: read)) t := by
    rw [inside?_cons (by decide), if_neg (by decide), if_pos rfl, if_neg (by omega),
      Nat.add_sub_cancel]
  rw [hopen, h _ _ _ (Nat.succ_pos depth), hclose]
  simp

theorem flatMap {α : Type} {f : α → Text} {l : List α} (h : ∀ x ∈ l, Balanced (f x)) :
    Balanced (l.flatMap f) := by
  induction l with
  | nil => exact nil
  | cons x l ih =>
    obtain ⟨hx, hl⟩ := List.forall_mem_cons.mp h
    exact append hx (ih hl)

/-- The inside of braces around a balanced text is this text. -/
theorem group? (h : Balanced a) (t : Text) :
    Occurrence.group? '{' '}' ('{' :: (a ++ '}' :: t)) = some ⟨a, t⟩ := by
  have hclose : inside? '{' '}' 1 a.reverse ('}' :: t) = some ⟨a, t⟩ := by
    rw [inside?_cons (by decide), if_neg (by decide), if_pos rfl, if_pos (by decide),
      List.reverse_reverse]
  rw [Occurrence.group?, if_pos (by decide), h 1 [] _ Nat.one_pos, List.append_nil, hclose]

end Balanced

/-- A text between braces. -/
def inBraces (a : Text) : Text := '{' :: (a ++ ['}'])

namespace CommandUse

variable {name t u : Text} {arity : Nat}

/-- A use does not go beyond the text. -/
theorem length_whole_le {use : CommandUse} (h : find? name arity t = some use) :
    use.whole.text.length + use.whole.rest.length ≤ t.length := by
  have hat : ∀ {t : Text} {use}, at? name arity t = some use →
      use.whole.text.length + use.whole.rest.length ≤ t.length := by
    intro t use h
    have hrest := (length_at? h).1
    unfold at? at h
    split at h
    · split at h
      · obtain ⟨⟨optional, args, rest⟩, -, rfl⟩ := Option.map_eq_some_iff.mp h
        simp only [upTo, List.length_take] at hrest ⊢
        omega
      · cases h
    · cases h
  fun_induction find? name arity t with
  | case1 => cases h
  | case2 t use' ha => exact Option.some.inj h ▸ hat ha
  | case3 t _ behind hb ih =>
    have hle := ih h
    have hlength := length_behindName? hb
    rw [List.length_cons]
    omega
  | case4 t _ _ ih =>
    have hle := ih h
    simp only [List.length_drop, List.length_cons] at hle ⊢
    omega
  | case5 c t _ ih => exact Nat.le_trans (ih h) (Nat.le_succ _)

/-! ## What is no use -/

theorem find?_cons {c : Char} (h : c ≠ '\\') : find? name arity (c :: t) = find? name arity t := by
  rw [find?]
  exact h

theorem behindName?_append (h : ∀ c ∈ t.head?, c.isAlpha = false) :
    behindName? name (name ++ t) = some t := by
  have hhead : t.head?.any Char.isAlpha = false := by
    cases t with
    | nil => rfl
    | cons c t => exact h c rfl
  rw [behindName?, Text.dropPrefix?_append]
  exact if_neg (by rw [hhead]; exact Bool.false_ne_true)

/-- A word of letters has no other word in front, after which the letters would go on. -/
theorem behindName?_of_ne {word : Text} (hname : ∀ c ∈ name, c.isAlpha = true)
    (hword : ∀ c ∈ word, c.isAlpha = true) (hne : word ≠ name)
    (ht : ∀ c ∈ t.head?, c.isAlpha = false) : behindName? name (word ++ t) = none := by
  have hsplit : ∀ {name word : Text}, (∀ c ∈ name, c.isAlpha = true) →
      (∀ c ∈ word, c.isAlpha = true) → word ≠ name → ∀ rest,
        Text.dropPrefix? name (word ++ t) = some rest → rest.head?.any Char.isAlpha = true := by
    intro name
    induction name with
    | nil =>
      intro word _ hword hne rest hrest
      obtain rfl := Option.some.inj hrest
      obtain ⟨c, word, rfl⟩ := List.exists_cons_of_ne_nil hne
      exact hword c List.mem_cons_self
    | cons a name ih =>
      intro word hname hword hne rest hrest
      obtain ⟨ha, hname⟩ := List.forall_mem_cons.mp hname
      cases word with
      | nil =>
        cases t with
        | nil => cases hrest
        | cons c t =>
          rw [List.nil_append, Text.dropPrefix?] at hrest
          split at hrest
          · next heq =>
            rw [heq, ht c rfl] at ha
            cases ha
          · cases hrest
      | cons c word =>
        rw [List.cons_append, Text.dropPrefix?] at hrest
        split at hrest
        · next heq =>
          have hletters := (List.forall_mem_cons.mp hword).2
          exact ih hname hletters (fun hsame => hne (by rw [heq, hsame])) rest hrest
        · cases hrest
  unfold behindName?
  split
  · next rest hrest => rw [if_pos (hsplit hname hword hne rest hrest)]
  · rfl

theorem find?_backslash (h : behindName? name t = none) :
    find? name arity ('\\' :: t) = find? name arity (t.drop 1) := by
  have hat : at? name arity ('\\' :: t) = none := by
    rw [at?, h]
  rw [find?, hat]
  simp only
  split
  · next hsome =>
    rw [h] at hsome
    cases hsome
  · rfl

theorem find?_append_of_forall {s : Text} (h : ∀ c ∈ s, c ≠ '\\') :
    find? name arity (s ++ t) = find? name arity t := by
  induction s with
  | nil => rfl
  | cons c s ih =>
    obtain ⟨hc, hs⟩ := List.forall_mem_cons.mp h
    rw [List.cons_append, find?_cons hc, ih hs]

/-! ## A use with balanced arguments -/

theorem groups?_inBraces {args : List Text} (h : ∀ a ∈ args, Balanced a) (t : Text) :
    ∃ ss, groups? args.length (args.flatMap inBraces ++ t) = some (ss, t) ∧
      ss.map Stretch.text = args := by
  induction args with
  | nil => exact ⟨[], rfl, rfl⟩
  | cons a args ih =>
    obtain ⟨ha, hargs⟩ := List.forall_mem_cons.mp h
    obtain ⟨ss, hss, htexts⟩ := ih hargs
    have hfront : (a :: args).flatMap inBraces ++ t =
        '{' :: (a ++ '}' :: (args.flatMap inBraces ++ t)) := by
      simp [inBraces]
    have hspaces : skipSpaces ('{' :: (a ++ '}' :: (args.flatMap inBraces ++ t))) =
        '{' :: (a ++ '}' :: (args.flatMap inBraces ++ t)) := rfl
    refine ⟨⟨a, '}' :: (args.flatMap inBraces ++ t)⟩ :: ss, ?_, by simp [htexts]⟩
    rw [hfront, List.length_cons, groups?, hspaces, ha.group?]
    simp [hss]

/-- A command with its arguments in braces is found at the front. -/
theorem find?_use {args : List Text} (hne : args ≠ []) (hargs : ∀ a ∈ args, Balanced a) (t : Text) :
    ∃ use, find? name args.length ('\\' :: (name ++ (args.flatMap inBraces ++ t))) = some use ∧
      use.whole.text.length + use.whole.rest.length =
        ('\\' :: (name ++ (args.flatMap inBraces ++ t))).length ∧
      use.whole.rest = t ∧ use.optional = none ∧ use.args.map Stretch.text = args := by
  obtain ⟨ss, hss, htexts⟩ := groups?_inBraces hargs t
  obtain ⟨a, args', rfl⟩ := List.exists_cons_of_ne_nil hne
  have hfront : ∃ r, (a :: args').flatMap inBraces ++ t = '{' :: r := ⟨_, rfl⟩
  obtain ⟨r, hr⟩ := hfront
  have hbehind : behindName? name (name ++ ((a :: args').flatMap inBraces ++ t)) =
      some ((a :: args').flatMap inBraces ++ t) :=
    behindName?_append (by rw [hr]; rintro c ⟨⟩; decide)
  have harguments : arguments? (a :: args').length ((a :: args').flatMap inBraces ++ t) =
      some (none, ss, t) := by
    have hspaces : skipSpaces ((a :: args').flatMap inBraces ++ t) =
        (a :: args').flatMap inBraces ++ t := by
      rw [hr]
      rfl
    have hgroup : group? '[' ']' ((a :: args').flatMap inBraces ++ t) = none := by
      rw [hr, group?, if_neg (by decide)]
    rw [arguments?, hspaces, hgroup]
    simp only [hss, Option.map_some]
    exact if_neg (Nat.succ_ne_zero _)
  have hat := at?.eq_1 name (a :: args').length (name ++ ((a :: args').flatMap inBraces ++ t))
  rw [hbehind] at hat
  simp only [harguments, Option.map_some] at hat
  refine ⟨⟨_, none, ss⟩, by rw [find?, hat], ?_, rfl, rfl, htexts⟩
  · simp only [upTo, List.length_take, List.length_cons, List.length_append]
    omega

end CommandUse

namespace Rule

variable {name t : Text} {arity : Nat} {render : Captures → Text}

/-- What the search passes over is left as it is. -/
theorem rewriteCommands_append_of_find? {s : Text}
    (h : find? name arity (s ++ t) = find? name arity t) :
    rewriteCommands name arity render (s ++ t) = s ++ rewriteCommands name arity render t := by
  rw [rewriteCommands.eq_1 _ _ _ (s ++ t), rewriteCommands.eq_1 _ _ _ t]
  split
  · next hnone =>
    rw [h] at hnone
    split
    · rfl
    · next hsome =>
      rw [hnone] at hsome
      cases hsome
  · next use huse =>
    rw [h] at huse
    split
    · next hnone =>
      rw [hnone] at huse
      cases huse
    · next use' huse' =>
      obtain rfl := Option.some.inj (huse.symm.trans huse')
      have hle := length_whole_le huse
      have hfront : inFront (s ++ t) use.whole = s ++ inFront t use.whole := by
        rw [inFront, inFront, List.length_append, List.take_append]
        congr 1
        · exact List.take_of_length_le (by omega)
        · congr 1
          omega
      simp only [hfront, List.append_assoc]

theorem rewriteCommands_nil : rewriteCommands name arity render [] = [] := by
  rw [rewriteCommands]
  split
  · rfl
  · next h =>
    rw [find?] at h
    cases h

theorem rewriteCommands_cons {c : Char} (h : c ≠ '\\') (t : Text) :
    rewriteCommands name arity render (c :: t) = c :: rewriteCommands name arity render t :=
  rewriteCommands_append_of_find? (s := [c]) (find?_cons h)

theorem rewriteCommands_append_of_forall {s : Text} (h : ∀ c ∈ s, c ≠ '\\') (t : Text) :
    rewriteCommands name arity render (s ++ t) = s ++ rewriteCommands name arity render t :=
  rewriteCommands_append_of_find? (find?_append_of_forall h)

/-- A backslash and a character that is no letter. -/
theorem rewriteCommands_escape (hne : name ≠ []) (hname : ∀ c ∈ name, c.isAlpha = true) {c : Char}
    (hc : c.isAlpha = false) (t : Text) : rewriteCommands name arity render ('\\' :: c :: t) =
      '\\' :: c :: rewriteCommands name arity render t := by
  have hbehind : behindName? name (c :: t) = none :=
    behindName?_of_ne hname (List.forall_mem_nil _) hne.symm (by simpa using hc)
  exact rewriteCommands_append_of_find? (s := ['\\', c]) (find?_backslash hbehind)

/-- Another control word. -/
theorem rewriteCommands_word {word : Text} (hname : ∀ c ∈ name, c.isAlpha = true)
    (hword : ∀ c ∈ word, c.isAlpha = true) (hempty : word ≠ []) (hne : word ≠ name)
    (ht : ∀ c ∈ t.head?, c.isAlpha = false) :
    rewriteCommands name arity render ('\\' :: (word ++ t)) =
      '\\' :: (word ++ rewriteCommands name arity render t) := by
  have hbehind := behindName?_of_ne hname hword hne ht
  obtain ⟨c, word, rfl⟩ := List.exists_cons_of_ne_nil hempty
  have hletters : ∀ d ∈ word, d ≠ '\\' := by
    intro d hd hbackslash
    have hdigit := hword d (List.mem_cons_of_mem c hd)
    rw [hbackslash] at hdigit
    exact absurd hdigit (by decide)
  have hfind : find? name arity ('\\' :: c :: word ++ t) = find? name arity t :=
    (find?_backslash hbehind).trans (find?_append_of_forall hletters)
  exact rewriteCommands_append_of_find? hfind

/-- A use of the command with its arguments in braces. -/
theorem rewriteCommands_use {args : List Text} (hne : args ≠ []) (hargs : ∀ a ∈ args, Balanced a)
    (t : Text) : rewriteCommands name args.length render
        ('\\' :: (name ++ (args.flatMap inBraces ++ t))) =
      render { groups := args.map (rewriteCommands name args.length render) } ++
        rewriteCommands name args.length render t := by
  obtain ⟨use, huse, hlength, hrest, hoptional, htexts⟩ := find?_use hne hargs t
  rw [rewriteCommands]
  split
  · next hnone =>
    rw [huse] at hnone
    cases hnone
  · next use' huse' =>
    obtain rfl := Option.some.inj (huse.symm.trans huse')
    have hfront : inFront ('\\' :: (name ++ (args.flatMap inBraces ++ t))) use.whole = [] := by
      rw [inFront, ← hlength]
      simp
    have hgroups : (use.args.attach.map fun arg =>
        rewriteCommands name args.length render arg.1.text) =
          args.map (rewriteCommands name args.length render) :=
      calc
        _ = use.args.map fun arg => rewriteCommands name args.length render arg.text :=
          List.attach_map_val
        _ = (use.args.map Stretch.text).map (rewriteCommands name args.length render) := by
          rw [List.map_map]
          rfl
        _ = args.map (rewriteCommands name args.length render) := by rw [htexts]
    rw [hfront, hoptional, hrest]
    exact congrArg (fun gs => render { groups := gs } ++
      rewriteCommands name args.length render t) hgroups

end Rule

end SpokenMath
