import SpokenMath.Domain
import SpokenMath.Text.Basic
import SpokenMath.Unicode.WordChars

/-!
# Polishing the wording

The rules leave phrases with spaces around them. Polishing puts single spaces between words, takes
repeated words out, adds pauses, chooses words for the audience and capitalizes sentences. It adds
no mathematics.

One **round** does all of this once. What one step makes can be work for an earlier one, so rounds
follow each other until nothing changes, four of them at most. Behind the first step of a round
blanks are single spaces, which the other steps rely on.
-/

namespace SpokenMath

namespace Polish

/-! ## Spaces -/

/-- Signs that stand right behind a word. -/
def closesUp (c : Char) : Bool := c == ',' || c == '.' || c == ';' || c == ':'

/-- Leaves out the spaces in front of signs that close up. -/
def tighten (t : Text) : Text :=
  t.foldr (fun c out => if c == ' ' && out.head?.any closesUp then out else c :: out) []

/-- Single spaces between words, and none in front of signs that close up. -/
def normalize (t : Text) : Text := tighten t.collapse

/-! ## Repetitions -/

/-- Words that may be said twice in a row, beside single letters and numbers. -/
def repeatable : List Text :=
  (["sin", "cos", "tan", "sec", "csc", "cot", "sinh", "cosh", "tanh", "arcsin", "arccos",
    "arctan", "log", "ln", "exp", "det", "plus", "minus", "times", "over", "equals", "and",
    "or", "not", "zero", "one", "two", "three", "four", "five", "six", "seven", "eight", "nine",
    "ten", "prime"] : List String).map String.toList

/-- Whether a word may be said twice in a row. -/
def mayRepeat (word : Text) : Bool :=
  word.size == 1 || word.all Char.isDigit || repeatable.contains word.lower

/-- The words without those that repeat the one before them. -/
def withoutRepeats : List Text → List Text
  | v :: w :: ws =>
    if Text.sameIgnoringCase v w && !mayRepeat w then withoutRepeats (v :: ws)
    else v :: withoutRepeats (w :: ws)
  | ws => ws
termination_by ws => ws.length

/-- Takes out words that repeat the one before them. -/
def avoidRepetition (t : Text) : Text := Text.join " " (withoutRepeats (Text.split (· == ' ') t))

/-! ## Pauses -/

/-- Signs that end a sentence. -/
def endsSentence (c : Char) : Bool := c == '.' || c == '!' || c == '?'

/-- The end of a sentence at the front of a reversed text, and what follows it. -/
def sentenceEnd : Text → Text × Text
  | c :: ' ' :: t => if endsSentence c then ([c, ' '], t) else ([], c :: ' ' :: t)
  | c :: t => if endsSentence c then ([c], t) else ([], c :: t)
  | [] => ([], [])

/-- A pause in front of a differential at the end of a text. -/
def pauseBeforeDifferential (t : Text) : Text :=
  match sentenceEnd t.reverse with
  | (ending, x :: ' ' :: 'd' :: ' ' :: c :: rest) =>
    if x.isAlpha && c != ',' then (ending ++ x :: ' ' :: 'd' :: ' ' :: ',' :: c :: rest).reverse
    else t
  | _ => t

/-- No word goes on at the front of this text. -/
def wordEnds (t : Text) : Bool := t.head?.all (!isWordChar ·)

/-- Words by which a power begins. -/
def powerWords : List Text := ["squared".toList, "cubed".toList, "to the".toList]

/-- A word by which a power begins, at the front of a text, and what follows it. -/
def powerWord? (t : Text) : Option (Text × Text) :=
  powerWords.findSome? fun w =>
    match Text.dropPrefix? w t with
    | some rest => if wordEnds rest then some (w, rest) else none
    | none => none

/-- The first power in a text before any comma: what stands before it, the word by which it begins,
and what follows. The part that is read already is given in reverse. -/
def findPower (read : Text) : Text → Option (Text × Text × Text)
  | [] => none
  | c :: t =>
    if c = ',' then none
    else match if c = ' ' ∧ read ≠ [] then powerWord? t else none with
      | some (w, rest) => some (read.reverse, w, rest)
      | none => findPower (c :: read) t

/-- The words in front of a quantity. -/
def quantityMark : Text := "the quantity ".toList

/-- The first part of a text that names a quantity with a power, if it is right at the front: the
part with a pause in front of the power, and what follows it. -/
def quantityPower? (t : Text) : Option (Text × Text) := do
  let inside ← Text.dropPrefix? quantityMark t
  let (quantity, w, rest) ← findPower [] inside
  some (quantityMark ++ quantity ++ ", " ++ w, rest)

theorem length_powerWord? {t w rest : Text} (h : powerWord? t = some (w, rest)) :
    rest.length ≤ t.length := by
  unfold powerWord? at h
  obtain ⟨v, -, hv⟩ := List.exists_of_findSome?_eq_some h
  split at hv
  · next r hr =>
    have := Text.length_dropPrefix? hr
    split at hv
    · simp only [Option.some.injEq, Prod.mk.injEq] at hv
      obtain ⟨-, rfl⟩ := hv
      omega
    · simp at hv
  · simp at hv

theorem length_findPower {read t q w rest : Text} (h : findPower read t = some (q, w, rest)) :
    rest.length < t.length := by
  induction t generalizing read with
  | nil => simp [findPower] at h
  | cons c t ih =>
    simp only [findPower] at h
    simp only [List.length_cons]
    split at h
    · simp at h
    · split at h
      · next hp =>
        simp only [Option.some.injEq, Prod.mk.injEq] at h
        obtain ⟨-, -, rfl⟩ := h
        split at hp
        · have := length_powerWord? hp
          omega
        · simp at hp
      · have := ih h
        omega

theorem length_quantityPower? {t part rest : Text} (h : quantityPower? t = some (part, rest)) :
    rest.length < t.length := by
  simp only [quantityPower?, Option.bind_eq_bind, Option.bind_eq_some_iff] at h
  obtain ⟨inside, hi, ⟨q, w, r⟩, hp, h⟩ := h
  simp only [Option.some.injEq, Prod.mk.injEq] at h
  obtain ⟨-, rfl⟩ := h
  have := Text.length_dropPrefix? hi
  have := length_findPower hp
  omega

/-- A pause in front of the power of a quantity. -/
def pauseAfterQuantity (t : Text) : Text :=
  match t with
  | [] => []
  | c :: t =>
    match _h : quantityPower? (c :: t) with
    | some (part, rest) => part ++ pauseAfterQuantity rest
    | none => c :: pauseAfterQuantity t
termination_by t.length
decreasing_by
  · exact length_quantityPower? _h
  · simp

/-- Adds pauses. -/
def insertPauses (t : Text) : Text := pauseAfterQuantity (pauseBeforeDifferential t)

/-! ## Vocabulary -/

/-- A small letter and a character are the same letter. The long s and the sign for kelvin are
letters as well. -/
def sameLetter (small c : Char) : Bool :=
  c.toLower == small || (small == 's' && c == 'ſ') || (small == 'k' && c == '\u212a')

/-- What follows a phrase at the front of a text; no word goes on behind it. -/
def afterPhrase? : Text → Text → Option Text
  | [], t => if wordEnds t then some t else none
  | _ :: _, [] => none
  | a :: phrase, c :: t => if sameLetter a c then afterPhrase? phrase t else none

theorem length_afterPhrase? {phrase t rest : Text} (h : afterPhrase? phrase t = some rest) :
    t.length = phrase.length + rest.length := by
  fun_induction afterPhrase? phrase t with
  | case1 t =>
    cases h
    simp
  | case2 => cases h
  | case3 => cases h
  | case4 a phrase c t _ ih =>
    have := ih h
    simp only [List.length_cons]
    omega
  | case5 => cases h

/-- Replaces a phrase wherever it stands as words of its own. The flag tells whether a word goes on
at the front of the text. -/
def substitute (phrase replacement : Text) (inWord : Bool) (t : Text) : Text :=
  match t with
  | [] => []
  | c :: t =>
    match _h : if inWord || phrase.isEmpty then none else afterPhrase? phrase (c :: t) with
    | some rest => replacement ++ substitute phrase replacement true rest
    | none => c :: substitute phrase replacement (isWordChar c) t
termination_by t.length
decreasing_by
  · split at _h
    · simp at _h
    · next hne =>
      have := length_afterPhrase? _h
      have : phrase ≠ [] := by
        rintro rfl
        simp at hne
      have := List.length_pos_iff.mpr this
      simp only [List.length_cons] at *
      omega
  · simp

/-- The words chosen for an audience. -/
def vocabulary : Audience → List (String × String)
  | .elementary =>
    [("approaches", "gets closer to"), ("is approximately equal to", "is about"),
      ("is greater than or equal to", "is at least"), ("is less than or equal to", "is at most")]
  | .highSchool =>
    [("approaches", "gets closer to"), ("is approximately equal to", "is about")]
  | .undergraduate => []
  | .graduate | .research => [("approaches", "tends to"), ("for every", "for all")]

/-- Chooses words for an audience. -/
def chooseWords (audience : Audience) (t : Text) : Text :=
  (vocabulary audience).foldl (fun t (phrase, replacement) => substitute phrase replacement false t)
    t

/-! ## Capitals -/

/-- A capital at the start of every sentence but the first one. -/
def capitalizeInside : Text → Text
  | e :: ' ' :: c :: t =>
    if endsSentence e && c.isLower then e :: ' ' :: c.toUpper :: capitalizeInside t
    else e :: capitalizeInside (' ' :: c :: t)
  | c :: t => c :: capitalizeInside t
  | [] => []

/-- A capital at the start of every sentence. A text that does not end as a sentence does is a
fragment, which keeps its first letter. -/
def capitalize (t : Text) : Text :=
  match capitalizeInside t with
  | [] => []
  | c :: t => if (c :: t).getLast?.any endsSentence then c.toUpper :: t else c :: t

/-- One round. -/
def round (audience : Audience) (t : Text) : Text :=
  capitalize (chooseWords audience (insertPauses (avoidRepetition (normalize t))))

/-- Rounds until nothing changes, at most `n`. -/
def rounds (audience : Audience) : Nat → Text → Text
  | 0, t => t
  | n + 1, t =>
    let next := round audience t
    if next = t then t else rounds audience n next

/-- The most rounds. -/
def maxRounds : Nat := 4

end Polish

/-- The polished wording of a text. -/
def polish (audience : Audience) (t : Text) : Text := Polish.rounds audience Polish.maxRounds t

end SpokenMath
