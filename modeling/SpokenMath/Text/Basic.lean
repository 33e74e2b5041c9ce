/-!
# Text as a list of characters

Everything the program reads and writes is a list of characters. Positions and limits that are
shown outside are counted in bytes of the UTF-8 form, so a text also has a *size* and a list of
*bytes*.

**Blank characters** are the twenty-five characters with the Unicode property `White_Space`.
**Words** are the longest runs free of blanks; `collapse` keeps the words of a text and puts one
space between neighbours.
-/

namespace SpokenMath

/-- A text is the list of its characters. -/
abbrev Text := List Char

/-- Literals are written as strings. -/
instance : Coe String Text := ⟨String.toList⟩

/-- A character with the Unicode property `White_Space`. -/
def isBlank (c : Char) : Bool :=
  let n := c.toNat
  (9 ≤ n && n ≤ 13) || n == 0x20 || n == 0x85 || n == 0xA0 || n == 0x1680 ||
    (0x2000 ≤ n && n ≤ 0x200A) || n == 0x2028 || n == 0x2029 || n == 0x202F || n == 0x205F ||
    n == 0x3000

theorem isAlpha_iff {c : Char} : c.isAlpha = true ↔
    (65 ≤ c.toNat ∧ c.toNat ≤ 90) ∨ 97 ≤ c.toNat ∧ c.toNat ≤ 122 := by
  have hupper : c.isUpper = true ↔ 65 ≤ c.toNat ∧ c.toNat ≤ 90 :=
    decide_eq_true_iff.trans (and_congr UInt32.le_iff_toNat_le UInt32.le_iff_toNat_le)
  have hlower : c.isLower = true ↔ 97 ≤ c.toNat ∧ c.toNat ≤ 122 :=
    Bool.and_eq_true_iff.trans (and_congr (decide_eq_true_iff.trans UInt32.le_iff_toNat_le)
      (decide_eq_true_iff.trans UInt32.le_iff_toNat_le))
  exact Bool.or_eq_true_iff.trans (or_congr hupper hlower)

theorem isBlank_of_isAlpha {c : Char} (h : c.isAlpha = true) : isBlank c = false := by
  have hbounds := isAlpha_iff.mp h
  simp only [isBlank, Bool.or_eq_false_iff, Bool.and_eq_false_iff, decide_eq_false_iff_not,
    beq_eq_false_iff_ne]
  omega

/-- A control character, of the Unicode category `Cc`. -/
def isControl (c : Char) : Bool :=
  c.toNat < 0x20 || (0x7F ≤ c.toNat && c.toNat ≤ 0x9F)

/-- The value of a hexadecimal digit. -/
def hexDigit? (c : Char) : Option Nat :=
  if c.isDigit then some (c.toNat - '0'.toNat)
  else if 'a' ≤ c ∧ c ≤ 'f' then some (c.toNat - 'a'.toNat + 10)
  else if 'A' ≤ c ∧ c ≤ 'F' then some (c.toNat - 'A'.toNat + 10)
  else none

namespace Text

/-! ## Size and bytes -/

/-- The length of the UTF-8 form, in bytes. -/
def size (t : Text) : Nat :=
  t.foldr (fun c n => c.utf8Size + n) 0

@[simp] theorem size_nil : size [] = 0 := rfl

@[simp] theorem size_cons (c : Char) (t : Text) : size (c :: t) = c.utf8Size + size t := rfl

@[simp] theorem size_append (s t : Text) : size (s ++ t) = size s + size t := by
  induction s with
  | nil => simp
  | cons c s ih => simp [ih, Nat.add_assoc]

theorem size_le_of_suffix {s t : Text} (h : s <:+ t) : s.size ≤ t.size := by
  obtain ⟨r, rfl⟩ := h
  rw [size_append]
  exact Nat.le_add_left _ _

/-- The UTF-8 form. -/
def bytes (t : Text) : List UInt8 := (String.ofList t).toByteArray.data.toList

/-! ## Blanks at the ends -/

/-- The text without its leading blanks. -/
def trimStart (t : Text) : Text := t.dropWhile isBlank

/-- The text without its trailing blanks. -/
def trimEnd (t : Text) : Text := (t.reverse.dropWhile isBlank).reverse

/-- The text without blanks at either end. -/
def trim (t : Text) : Text := trimEnd (trimStart t)

/-- The text without the characters `c` at its end. -/
def trimEndOf (c : Char) (t : Text) : Text := (t.reverse.dropWhile (· == c)).reverse

/-- Nothing but blanks. -/
def allBlank (t : Text) : Bool := t.all isBlank

/-! ## One space between words -/

/-- Puts `c` in front of a text whose blank runs are single spaces already. -/
def squeezeCons (c : Char) (t : Text) : Text :=
  if isBlank c then
    match t with
    | [] => []
    | ' ' :: _ => t
    | _ => ' ' :: t
  else c :: t

/-- Every blank run becomes one space, and the last one disappears. -/
def squeeze (t : Text) : Text := t.foldr squeezeCons []

/-- The words of the text with one space between neighbours. -/
def collapse (t : Text) : Text :=
  match squeeze t with
  | ' ' :: r => r
  | r => r

/-! ## Pieces -/

/-- The pieces between the characters that satisfy `p`; there is one more piece than such
characters. -/
def split (p : Char → Bool) (t : Text) : List Text :=
  t.foldr (fun c pieces =>
    if p c then [] :: pieces
    else match pieces with
      | [] => [[c]]
      | w :: ws => (c :: w) :: ws) [[]]

/-- The longest runs free of blanks. -/
def words (t : Text) : List Text := (split isBlank t).filter (!·.isEmpty)

/-- The pieces put together again with `gap` between neighbours. -/
def join (gap : Text) (pieces : List Text) : Text := List.intercalate gap pieces

/-- What follows `start` in the text, if the text begins with it. -/
def dropPrefix? : Text → Text → Option Text
  | [], t => some t
  | _ :: _, [] => none
  | a :: start, c :: t => if a = c then dropPrefix? start t else none

theorem length_dropPrefix? {start t rest : Text} (h : dropPrefix? start t = some rest) :
    t.length = start.length + rest.length := by
  fun_induction dropPrefix? start t with
  | case1 t =>
    cases h
    simp
  | case2 => cases h
  | case3 start c t ih =>
    have := ih h
    simp only [List.length_cons]
    omega
  | case4 => cases h

theorem dropPrefix?_append (s t : Text) : dropPrefix? s (s ++ t) = some t := by
  induction s with
  | nil => rfl
  | cons c s ih => rw [List.cons_append, dropPrefix?, if_pos rfl, ih]

theorem dropPrefix?_eq_some_iff {start t rest : Text} :
    dropPrefix? start t = some rest ↔ t = start ++ rest := by
  refine ⟨fun h => ?_, fun h => h ▸ dropPrefix?_append start rest⟩
  fun_induction dropPrefix? start t with
  | case1 => exact Option.some.inj h
  | case2 => cases h
  | case3 start c t ih => rw [ih h, List.cons_append]
  | case4 => cases h

/-- The text begins with `start`. -/
def startsWith (start t : Text) : Bool := (dropPrefix? start t).isSome

/-- The text contains `needle` as consecutive characters. -/
def contains (needle : Text) : Text → Bool
  | [] => needle.isEmpty
  | c :: t => startsWith needle (c :: t) || contains needle t

/-- The text with ASCII capitals made small. -/
def lower (t : Text) : Text := t.map Char.toLower

/-- Two texts are equal up to the case of ASCII letters. -/
def sameIgnoringCase (s t : Text) : Bool := lower s == lower t

end Text

/-- A text whose braces are written as the angle quotes `‹` and `›`, as tables of notation do. -/
def braced (s : String) : Text :=
  s.toList.map fun c => if c == '‹' then '\x7b' else if c == '›' then '\x7d' else c

/-- The UTF-8 form of a name. -/
def nameBytes (s : String) : List UInt8 := s.toByteArray.data.toList

end SpokenMath
