import SpokenMath.Proofs.Markup.Lossless
import SpokenMath.Proofs.Screening.Counting

/-!
# The screening and the reader see the same

The screening looks at the pieces of a text, character by character, and the reader at its tokens.
Every token stands for certain pieces, and the pieces of a text are those of its tokens, with the
backslash that stands alone at the end (`pieces_eq_flatMap`).

**Theorem (`scan_agrees`).** What the screening counts are tokens: the opening and the closing
braces, the marks of scripts, and the uses of the risky command that is used most. What it finds
forbidden is the first forbidden construct of the tokens.

A backslash that starts nothing is a piece and no token. It changes nothing: it is no brace, no
mark of a script, no command and no caret.
-/

namespace SpokenMath

/-! ## The pieces of a token -/

/-- A character of a run. -/
def Piece.ofPlain (c : Char) : Piece := if isBlank c then .blank else .sign c

namespace Token

/-- The pieces that a token stands for. -/
def pieces : Token → List Piece
  | text run => run.map Piece.ofPlain
  | command name => [.word name]
  | escaped c => [.escape c]
  | rowSep => [.escape '\\']
  | openBrace => [.sign '{']
  | closeBrace => [.sign '}']
  | openBracket => [.sign '[']
  | closeBracket => [.sign ']']
  | sub => [.sign '_']
  | sup => [.sign '^']
  | align => [.sign '&']

end Token

theorem pieces_cons_plain {c : Char} (h : Token.isPlain c = true) (t : Text) :
    pieces (c :: t) = Piece.ofPlain c :: pieces t := by
  have hne : c ≠ '\\' := by
    rintro rfl
    cases h
  rw [Piece.ofPlain]
  cases hblank : isBlank c with
  | true => exact pieces_blank hblank t
  | false => exact pieces_sign hne hblank t

theorem pieces_run {run : Text} (h : ∀ c ∈ run, Token.isPlain c = true) (t : Text) :
    pieces (run ++ t) = run.map Piece.ofPlain ++ pieces t := by
  induction run with
  | nil => rfl
  | cons c run ih =>
    obtain ⟨hc, hrun⟩ := List.forall_mem_cons.mp h
    rw [List.cons_append, List.map_cons, List.cons_append, ← ih hrun, pieces_cons_plain hc]

/-- **The pieces of a text are those of its tokens**, and the backslash that stands alone at the
end. -/
theorem pieces_eq_flatMap (t : Text) :
    pieces t = (tokenize t).flatMap Token.pieces ++ if endsLoose t then [.sign '\\'] else [] := by
  fun_induction tokenize t with
  | case1 => rw [pieces_nil]; rfl
  | case2 => rw [pieces_backslash]; rfl
  | case3 t ih =>
    rw [pieces_escape (by decide), ih]
    rfl
  | case4 c t hc halpha ih =>
    rw [pieces_word halpha, ih, endsLoose_dropWhile rfl]
    rfl
  | case5 c t hc halpha ih =>
    rw [pieces_escape (by simpa using halpha), ih]
    rfl
  | case13 c t hend _ hpair hopen hclose hopen' hclose' hsub hsup halign ih =>
    have hne := ne_backslash hend hpair
    have hplain := isPlain_of_ne hne hopen hclose hopen' hclose' hsub hsup halign
    have hrun : ∀ d ∈ c :: t.takeWhile Token.isPlain, Token.isPlain d = true :=
      List.forall_mem_cons.mpr ⟨hplain, List.all_eq_true.mp List.all_takeWhile⟩
    have hsplit : c :: t = (c :: t.takeWhile Token.isPlain) ++ t.dropWhile Token.isPlain := by
      rw [List.cons_append, List.takeWhile_append_dropWhile]
    rw [endsLoose_dropWhile rfl] at ih
    rw [endsLoose_cons hne, List.flatMap_cons, List.append_assoc, ← ih]
    conv_lhs => rw [hsplit]
    exact pieces_run hrun _
  | _ t ih =>
    rw [pieces_sign (by decide) (by decide), ih]
    rfl

/-! ## What is counted -/

/-- What is counted in pieces is counted in tokens, if every token stands for one piece that counts
or for none. -/
theorem countP_pieces {counts : Piece → Bool} {counts' : Token → Bool}
    (h : ∀ tok, tok.Cut → tok.pieces.countP counts = if counts' tok then 1 else 0)
    (hend : counts (.sign '\\') = false) (t : Text) :
    (pieces t).countP counts = (tokenize t).countP counts' := by
  have htokens : ∀ ts : List Token, (∀ tok ∈ ts, tok.Cut) →
      (ts.flatMap Token.pieces).countP counts = ts.countP counts' := by
    intro ts hcut
    induction ts with
    | nil => rfl
    | cons tok ts ih =>
      obtain ⟨htok, hts⟩ := List.forall_mem_cons.mp hcut
      rw [List.flatMap_cons, List.countP_append, ih hts, h tok htok, List.countP_cons,
        Nat.add_comm]
  rw [pieces_eq_flatMap, List.countP_append, htokens _ cut_of_mem_tokenize]
  split <;> simp [hend]

/-- Nothing in a run counts if no plain sign does. -/
theorem countP_run {counts : Piece → Bool} (hblank : counts .blank = false)
    (hsign : ∀ c, Token.isPlain c = true → counts (.sign c) = false) {run : Text}
    (h : Token.Cut (.text run)) : (Token.text run).pieces.countP counts = 0 := by
  rw [Token.pieces, List.countP_eq_zero]
  intro p hp
  obtain ⟨c, hc, rfl⟩ := List.mem_map.mp hp
  rw [Piece.ofPlain]
  split
  · simp [hblank]
  · simp [hsign c (h.2 c hc)]

namespace Token

theorem mem_marks_iff {c : Char} {mark : Token} : (c, mark) ∈ marks ↔
    (c = '{' ∧ mark = openBrace) ∨ (c = '}' ∧ mark = closeBrace) ∨ (c = '[' ∧ mark = openBracket) ∨
      (c = ']' ∧ mark = closeBracket) ∨ (c = '_' ∧ mark = sub) ∨ (c = '^' ∧ mark = sup) ∨
        (c = '&' ∧ mark = align) := by
  simp [marks]

end Token

/-- A mark is counted where its token is. -/
theorem count_mark {c : Char} {mark : Token} (h : (c, mark) ∈ Token.marks) (t : Text) :
    (pieces t).count (.sign c) = (tokenize t).count mark := by
  have hmarks := Token.mem_marks_iff.mp h
  have hspecial : Token.isPlain c = false ∧ '\\' ≠ c ∧ ∀ run, .text run ≠ mark := by
    rcases hmarks with ⟨rfl, rfl⟩ | ⟨rfl, rfl⟩ | ⟨rfl, rfl⟩ | ⟨rfl, rfl⟩ | ⟨rfl, rfl⟩ |
      ⟨rfl, rfl⟩ | ⟨rfl, rfl⟩ <;> exact ⟨rfl, by decide, nofun⟩
  refine countP_pieces (fun tok hcut => ?_) (by simpa using hspecial.2.1) t
  cases tok with
  | text run =>
    rw [countP_run rfl (fun d hd => ?_) hcut, if_neg (by simpa using hspecial.2.2 run)]
    refine beq_false_of_ne fun heq => ?_
    obtain rfl := Piece.sign.inj heq
    rw [hspecial.1] at hd
    cases hd
  | _ =>
    rcases hmarks with ⟨rfl, rfl⟩ | ⟨rfl, rfl⟩ | ⟨rfl, rfl⟩ | ⟨rfl, rfl⟩ | ⟨rfl, rfl⟩ |
      ⟨rfl, rfl⟩ | ⟨rfl, rfl⟩ <;> rfl

/-- There are two marks of scripts. -/
theorem countP_isScript (ps : List Piece) :
    ps.countP Piece.isScript = ps.count (.sign '_') + ps.count (.sign '^') := by
  induction ps with
  | nil => rfl
  | cons p ps ih =>
    have hp : (if p.isScript then 1 else 0) =
        (if p == .sign '_' then 1 else 0) + if p == .sign '^' then 1 else 0 := by
      cases p with
      | sign c =>
        by_cases hsub : c = '_'
        · rw [hsub]; rfl
        · by_cases hsup : c = '^'
          · rw [hsup]; rfl
          · simp [Piece.isScript, hsub, hsup]
      | _ => rfl
    rw [List.countP_cons, List.count_cons, List.count_cons, ih, hp]
    omega

/-! ## What is forbidden -/

theorem firstDanger?_cons_congr {α β : Type} [DecidableEq α] [DecidableEq β]
    {name? : α → Option String} {name?' : β → Option String} {caret a : α} {caret' b : β}
    {l : List α} {m : List β} (hname : name? a = none) (hne : a ≠ caret)
    (hname' : name?' b = none) (hne' : b ≠ caret')
    (h : firstDanger? name? caret l = firstDanger? name?' caret' m) :
    firstDanger? name? caret (a :: l) = firstDanger? name?' caret' (b :: m) := by
  rw [firstDanger?_cons_of_ne hname hne, firstDanger?_cons_of_ne hname' hne', h]

theorem firstDanger?_dropWhile (t : Text) :
    firstDanger? Piece.name? (.sign '^') (pieces (t.dropWhile Token.isPlain)) =
      firstDanger? Piece.name? (.sign '^') (pieces t) := by
  refine apply_dropWhile (f := fun t => firstDanger? Piece.name? (.sign '^') (pieces t)) ?_ t
  intro c t hplain
  obtain ⟨p, hp, hname, hne⟩ := pieces_plain hplain t
  simp only [hp, firstDanger?_cons_of_ne hname hne]

/-- **The screening and the reader find the same forbidden construct first.** -/
theorem firstDanger?_pieces (t : Text) :
    firstDanger? Piece.name? (.sign '^') (pieces t) =
      firstDanger? Token.name? .sup (tokenize t) := by
  fun_induction tokenize t with
  | case1 => rw [pieces_nil]; rfl
  | case2 => rw [pieces_backslash]; rfl
  | case3 t ih =>
    rw [pieces_escape (by decide)]
    exact firstDanger?_cons_congr rfl (by decide) rfl (by decide) ih
  | case4 c t hc halpha ih =>
    rw [pieces_word halpha, firstDanger?_cons, firstDanger?_cons, ih]
    rfl
  | case5 c t hc halpha ih =>
    rw [pieces_escape (by simpa using halpha)]
    exact firstDanger?_cons_congr rfl (by simp) rfl (by simp) ih
  | case11 t ih =>
    have hhead : (pieces t).head? = some (.sign '^') ↔ (tokenize t).head? = some .sup := by
      rw [head?_pieces_eq_caret_iff, head?_tokenize_eq_sup_iff]
    rw [pieces_sign (by decide) (by decide), firstDanger?_cons, firstDanger?_cons, ih, dangerAt?,
      dangerAt?]
    simp only [hhead, true_and]
    rfl
  | case13 c t hend _ hpair hopen hclose hopen' hclose' hsub hsup halign ih =>
    have hplain := isPlain_of_ne (ne_backslash hend hpair) hopen hclose hopen' hclose' hsub hsup
      halign
    obtain ⟨p, hp, hname, hne⟩ := pieces_plain hplain t
    rw [firstDanger?_dropWhile] at ih
    rw [hp]
    exact firstDanger?_cons_congr hname hne rfl (by simp) ih
  | _ t ih =>
    rw [pieces_sign (by decide) (by decide)]
    exact firstDanger?_cons_congr rfl (by decide) rfl (by decide) ih

/-! ## The whole profile -/

/-- A command is used as often as its name stands among the control words. -/
theorem count_controlWords (t : Text) (name : String) :
    (controlWords t).count name = (tokenize t).count (.command name) := by
  rw [controlWords, List.count_filterMap, List.count]
  refine List.countP_congr fun tok _ => ?_
  cases tok <;> simp [Token.name?]

/-- The risky commands that are noted are those among the commands of the tokens. -/
theorem riskyNames_pieces (t : Text) :
    Survey.riskyNames (pieces t) = (controlWords t).filter riskyCommands.contains := by
  rw [Survey.riskyNames, names_pieces]

theorem mem_controlWords {t : Text} {name : String} :
    name ∈ controlWords t ↔ .command name ∈ tokenize t := by
  rw [← List.count_pos_iff, count_controlWords, List.count_pos_iff]

/-- A walk over a whole text has tallied the risky commands of its tokens. -/
theorem tallied_pieces (t : Text) : ((pieces t).foldl Survey.step {}).Tallied
    ((controlWords t).filter riskyCommands.contains) := by
  have hstart : Survey.Tallied [] {} :=
    ⟨fun _ => rfl, iff_of_true rfl rfl, fun _ _ h => nomatch (h : none = some _)⟩
  have hwalk := hstart.foldl (pieces t)
  rwa [List.nil_append, riskyNames_pieces] at hwalk

/-- **The screening sees what the reader sees.** Its counts of braces and of scripts are counts of
tokens; what it finds forbidden is the first forbidden construct of the tokens, and there is none
where no token is a forbidden command and no two in a row are marks of superscripts; and the risky
command that it notes is used as often as any, and there is none where no token is a risky
command. -/
theorem scan_agrees (t : Text) :
    (Profile.scan t).openBraces = (tokenize t).count .openBrace ∧
      (Profile.scan t).closeBraces = (tokenize t).count .closeBrace ∧
      (Profile.scan t).scripts = (tokenize t).count .sub + (tokenize t).count .sup ∧
      (Profile.scan t).dangerous = firstDanger? Token.name? .sup (tokenize t) ∧
      ((Profile.scan t).dangerous = none ↔
        (∀ name, .command name ∈ tokenize t → name ∉ forbiddenCommands) ∧
          ¬ Doubled .sup (tokenize t)) ∧
      ((Profile.scan t).topRisky = none ↔
        ∀ name, .command name ∈ tokenize t → name ∉ riskyCommands) ∧
      ∀ best n, (Profile.scan t).topRisky = some (best, n) →
        best ∈ riskyCommands ∧ (tokenize t).count (.command best) = n ∧
          ∀ name ∈ riskyCommands, (tokenize t).count (.command name) ≤ n := by
  have hopen := Survey.foldl_count Survey.openBraces_step (pieces t) {}
  have hclose := Survey.foldl_count Survey.closeBraces_step (pieces t) {}
  have hscripts := Survey.foldl_count Survey.scripts_step (pieces t) {}
  have hdanger : (Profile.scan t).dangerous = firstDanger? Token.name? .sup (tokenize t) := by
    rw [Profile.scan, Survey.dangerous_foldl, firstDanger?_pieces]
    simp
  have htallied := tallied_pieces t
  have hcount : ∀ name ∈ riskyCommands,
      ((controlWords t).filter riskyCommands.contains).count name =
        (tokenize t).count (.command name) := by
    intro name hname
    rw [List.count_filter (by simpa using hname), count_controlWords]
  refine ⟨?_, ?_, ?_, hdanger, ?_, ?_, fun best n hbest => ?_⟩
  · exact hopen.trans ((Nat.zero_add _).trans (count_mark (by simp [Token.marks]) t))
  · exact hclose.trans ((Nat.zero_add _).trans (count_mark (by simp [Token.marks]) t))
  · rw [← count_mark (c := '_') (by simp [Token.marks]),
      ← count_mark (c := '^') (by simp [Token.marks]), ← countP_isScript]
    exact hscripts.trans (Nat.zero_add _)
  · rw [hdanger, firstDanger?_eq_none_iff]
    exact and_congr_left' (forall_congr' fun name => imp_congr_left mem_controlWords)
  · refine htallied.none_iff.trans (List.filter_eq_nil_iff.trans (forall_congr' fun name => ?_))
    rw [mem_controlWords, List.contains_iff_mem]
  · obtain ⟨hmem, hbest, hmost⟩ := htallied.top best n hbest
    have hrisky : best ∈ riskyCommands := by simpa using (List.mem_filter.mp hmem).2
    exact ⟨hrisky, (hcount best hrisky).symm.trans hbest, fun name hname =>
      (hcount name hname).symm.trans_le (hmost name)⟩

end SpokenMath
