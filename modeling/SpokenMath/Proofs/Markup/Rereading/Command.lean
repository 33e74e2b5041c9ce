import SpokenMath.Proofs.Markup.Rereading.Sequence

/-!
# Reading canonical groups and commands

Every argument stands between braces in canonical text, so the arguments of a command are read back
one after the other, whatever their number. A control word without arguments is kept apart from the
letters behind it by its space or by a mark (`Follows.alone`), and so it takes no brace behind it
for an argument.

**Theorem (`Rereads.command`).** A control word is read back with its arguments if its name, the
brackets and the braces are.
-/

namespace SpokenMath

open Node Text

namespace Reading

variable {n n' : Node} {args args' cs out : List Node} {optional optional' : Option Node}

/-! ## Between braces -/

theorem tokenize_lineBraces (n : Node) (t : Text) :
    tokenize (n.lineBraces ++ t) = .openBrace :: tokenize (n.within ++ '}' :: t) := by
  rw [lineBraces, List.cons_append, List.append_assoc, tokenize_openBrace]
  rfl

theorem RereadsWithin.same_braces (h : RereadsWithin n n') :
    SameIf n.Orderly n.lineBraces n'.lineBraces :=
  (h.same.append_right ['}']).append_left ['{']

theorem RereadsWithin.same_brackets (h : RereadsWithin n n') :
    SameIf n.Orderly (lineOptional (some n)) (lineOptional (some n')) :=
  (h.same.append_right [']']).append_left ['[']

theorem RereadsWithin.reads_argument (h : RereadsWithin n n') (t : Text) :
    Reads .argument (tokenize (n.lineBraces ++ t)) [n'] (tokenize t) := by
  rw [tokenize_lineBraces]
  exact .argGroup (h.braces t)

/-- A group is read back if its nodes are. -/
theorem RereadsWithin.group (h : RereadsWithin (group cs) (group out)) :
    Rereads (group cs) (group out) where
  spelled := h.spelled
  solid := by
    rw [spell_group]
    exact solid_braces _
  ne_leaf := nofun
  isAlone_eq := rfl
  same := by
    rw [line_group, line_group]
    exact h.same_braces
  reads := by
    intro stop acc t ns rest _ _ _ hreads
    rw [line_group, tokenize_lineBraces]
    exact .braces (h.braces t) hreads

/-! ## Arguments -/

/-- Arguments are read back one after the other. -/
theorem reads_arguments (h : List.Forall₂ RereadsWithin args args') (t : Text) :
    Reads (.arguments args.length) (tokenize (args.flatMap lineBraces ++ t)) args' (tokenize t) := by
  induction h with
  | nil => exact .noArguments
  | @cons n n' args args' hn _ ih =>
    rw [List.flatMap_cons, List.append_assoc]
    exact .moreArguments (hn.reads_argument _) ih

theorem exists_forall₂_rereadsWithin (h : ∀ a ∈ args, ∃ out, RereadsWithin a (Node.group out)) :
    ∃ args', List.Forall₂ RereadsWithin args args' := by
  induction args with
  | nil => exact ⟨[], .nil⟩
  | cons a args ih =>
    obtain ⟨⟨out, ha⟩, hargs⟩ := List.forall_mem_cons.mp h
    obtain ⟨args', hargs'⟩ := ih hargs
    exact ⟨_, .cons ha hargs'⟩

theorem same_arguments (h : List.Forall₂ RereadsWithin args args') :
    SameIf (∀ a ∈ args, a.Orderly) (args.flatMap lineBraces) (args'.flatMap lineBraces) :=
  .flatMap (h.imp fun _ _ => RereadsWithin.same_braces)

theorem spelled_arguments (h : List.Forall₂ RereadsWithin args args') :
    ∀ a ∈ args', a.Spelled := by
  induction h with
  | nil => nofun
  | cons hn _ ih => exact List.forall_mem_cons.mpr ⟨hn.spelled, ih⟩

/-! ## What may be missing -/

theorem exists_rel_rereadsWithin (h : ∀ o ∈ optional, ∃ out, RereadsWithin o (Node.group out)) :
    ∃ optional', Option.Rel RereadsWithin optional optional' := by
  cases optional with
  | none => exact ⟨none, .none⟩
  | some o =>
    obtain ⟨out, ho⟩ := h o rfl
    exact ⟨_, .some ho⟩

theorem spelled_optional (h : Option.Rel RereadsWithin optional optional') :
    ∀ o ∈ optional', o.Spelled := by
  cases h with
  | none => nofun
  | some h =>
    intro o ho
    obtain rfl := Option.some.inj ho
    exact h.spelled

/-- The text of what is missing is the same. -/
theorem same_optional (h : Option.Rel RereadsWithin optional optional') :
    SameIf (∀ o ∈ optional, o.Orderly) (lineOptional optional) (lineOptional optional') := by
  cases h with
  | none => exact .refl nofun []
  | some h => exact h.same_brackets.congr (by simp)

/-! ## Control words -/

/-- What stands behind a control word is no letter. -/
theorem not_isAlpha_of_follows {name : String} (hname : IsWordName name) {t : Text}
    (h : Follows (command name args optional) t) :
    ∀ c ∈ (lineOptional optional ++ (args.flatMap lineBraces ++ t)).head?, c.isAlpha = false := by
  cases optional with
  | some o =>
    intro c hc
    obtain rfl := Option.some.inj hc
    decide
  | none =>
    cases args with
    | cons a args =>
      intro c hc
      obtain rfl := Option.some.inj hc
      decide
    | nil =>
      have halone : (command name [] none).isAlone = true := by
        simpa [isAlone, isWord] using hname.2
      intro c hc
      rcases h.alone halone c hc with rfl | rfl | rfl <;> decide

/-- **A control word is read back with its arguments.** -/
theorem Rereads.command {name : String} (hname : IsWordName name)
    (hoptional : Option.Rel RereadsWithin optional optional')
    (hargs : List.Forall₂ RereadsWithin args args')
    (hreads : ∀ t, Follows (command name args optional) t →
      Reads (.command name) (tokenize (lineOptional optional ++ (args.flatMap lineBraces ++ t)))
        [command name args' optional'] (tokenize t)) :
    Rereads (command name args optional) (command name args' optional') where
  spelled := spelled_command (spelled_arguments hargs) (spelled_optional hoptional)
  solid := solid_command hname.not_blank args' optional'
  ne_leaf := nofun
  isAlone_eq := by
    have hempty : args'.isEmpty = args.isEmpty := by cases hargs <;> rfl
    have hnone : optional'.isNone = optional.isNone := by cases hoptional <;> rfl
    rw [isAlone, isAlone, hempty, hnone]
  same := by
    rw [line_command hname.not_blank, line_command hname.not_blank]
    have hsame := (same_optional hoptional).append (same_arguments hargs)
    exact ((hsame.append_left name.toList).append_left ['\\']).congr orderly_command.symm
  reads := by
    intro stop acc t ns rest _ _ hfollows hrest
    rw [line_command hname.not_blank, List.cons_append, List.append_assoc, List.append_assoc,
      tokenize_word hname.1 hname.2 (not_isAlpha_of_follows hname hfollows)]
    exact .word (hreads t hfollows) hrest

/-- A sign is read back. -/
theorem rereads_sign {c : Char} (halpha : c.isAlpha = false) (hne : c ≠ '\\')
    (hblank : isBlank c = false) :
    Rereads (bare (String.singleton c)) (bare (String.singleton c)) where
  spelled := spelled_command nofun nofun
  solid := solid_command (by simpa using hblank) [] none
  ne_leaf := nofun
  isAlone_eq := rfl
  same := .refl (orderly_bare _) _
  reads := by
    intro stop acc t ns rest _ _ _ hrest
    rw [bare, line_command (by simpa using hblank)]
    have htext : '\\' :: ((String.singleton c).toList ++ (lineOptional none ++
        List.flatMap lineBraces [])) ++ t = '\\' :: c :: t := by
      simp [lineOptional]
    rw [htext, tokenize_escaped halpha hne]
    exact .sign hrest

/-- A word without a shape takes a group for its argument, if one stands behind it. -/
theorem Rereads.unknownBare {name : String} (hordinary : IsOrdinary name)
    (hname : IsWordName name) (hshape : Shape.ofCommand? name = none) :
    Rereads (bare name) (bare name) := by
  refine .command hname .none .nil fun t hfollows => .unknownBare hordinary hshape ?_
  have halone : (bare name).isAlone = true := by simpa [bare, isAlone, isWord] using hname.2
  have hhead := hfollows.alone halone
  show (tokenize t).head? ≠ some .openBrace
  cases t with
  | nil => simp
  | cons c t =>
    rcases hhead c rfl with rfl | rfl | rfl
    · rw [tokenize_plain (by decide)]
      simp
    · simp
    · simp

theorem Rereads.unknownBraces {name : String} (hordinary : IsOrdinary name)
    (hname : IsWordName name) (hshape : Shape.ofCommand? name = none) (h : RereadsWithin n n') :
    Rereads (Node.command name [n] none) (Node.command name [n'] none) := by
  refine .command hname .none (.cons h .nil) fun t _ => ?_
  show Reads _ (tokenize ((n.lineBraces ++ []) ++ t)) _ _
  rw [List.append_nil, tokenize_lineBraces]
  exact .unknownBraces hordinary hshape (h.braces t)

/-- Behind a bracketed argument another one comes. -/
theorem args_ne_zero_of_optional {name : String} {shape : Shape}
    (h : Shape.ofCommand? name = some shape) (hoptional : shape.optional = true) :
    shape.args ≠ 0 := by
  unfold Shape.ofCommand? at h
  split_ifs at h <;> obtain rfl := Option.some.inj h <;> simp_all

theorem Rereads.known {name : String} {shape : Shape} (hordinary : IsOrdinary name)
    (hname : IsWordName name) (hshape : Shape.ofCommand? name = some shape)
    (hlength : args.length = shape.args)
    (hbracket : ∀ o ∈ optional, shape.optional = true ∧ Unbracketed o.contents)
    (hoptional : Option.Rel RereadsWithin optional optional')
    (hargs : List.Forall₂ RereadsWithin args args') :
    Rereads (Node.command name args optional) (Node.command name args' optional') := by
  refine .command hname hoptional hargs fun t _ => ?_
  have hread := reads_arguments hargs t
  rw [hlength] at hread
  cases hoptional with
  | none =>
    refine .known hordinary hshape (.noBrackets fun hallowed => ?_) hread
    have hne := args_ne_zero_of_optional hshape hallowed
    cases args with
    | nil => exact absurd hlength.symm hne
    | cons a args =>
      rw [lineOptional, Option.elim_none, List.nil_append, List.flatMap_cons, List.append_assoc,
        tokenize_lineBraces]
      simp [skipBlank]
  | @some o o' ho =>
    obtain ⟨hallowed, hunbracketed⟩ := hbracket o rfl
    refine .known (o := [o']) hordinary hshape ?_ hread
    rw [hallowed, lineOptional, Option.elim_some, List.cons_append, List.append_assoc]
    exact ho.brackets hunbracketed _

end Reading

end SpokenMath
