import SpokenMath.Unicode.Property

/-!
# Boundaries in text

Each character plays a part in finding the boundaries of graphemes, words and sentences. The parts
follow from categories and properties, up to some characters that are listed.
-/

namespace SpokenMath.Unicode

/-- Tags, which extend what they follow. -/
def tags : Recipe := "E0020-E007F"

/-- Signs that stand in front of a number. -/
def numberSigns : Recipe := "600-605 6DD 890-891 8E2 110BD 110CD"

/-! ## Graphemes -/

namespace Grapheme

/-- Controls. -/
def control : Recipe :=
  (Category.control ∪ Category.format ∪ Category.lineSeparator ∪
    Category.paragraphSeparator ∪
    (.runs "2065 FFF0-FFF8 E0000 E0002-E001F E0080-E00FF E01F0-E0FFF")) \
    (Property.prependedConcatenationMark ∪ tags ∪ (.runs "A D 200C-200D"))

/-- What extends a grapheme. -/
def extend : Recipe :=
  Property.graphemeExtend ∪ Property.emojiModifier

/-- Marks that extend a grapheme and take space. -/
def spacingMark : Recipe :=
  (Category.spacingMark ∪ (.runs "E33 EB3")) \
    (Property.graphemeExtend ∪
    (.runs "102B-102C 1038 1062-1064 1067-106D 1083 1087-108C 108F 109A-109C 1A61 1A63-1A64 AA7B
      AA7D 11720-11721"))

/-- What belongs to the grapheme behind it. -/
def prepended : Recipe :=
  "600-605 6DD 70F 890-891 8E2 D4E 110BD 110CD 111C2-111C3 113D1 1193F 11941 11A3A 11A84-11A89 11D46
  11F02"

/-- Leading consonants of Hangul. -/
def leadingJamo : Recipe :=
  "1100-115F A960-A97C"

/-- Vowels. -/
def vowelJamo : Recipe :=
  "1160-11A7 D7B0-D7C6 16D63 16D67-16D6A"

/-- Trailing consonants of Hangul. -/
def trailingJamo : Recipe :=
  "11A8-11FF D7CB-D7FB"

/-- Syllables of Hangul without a trailing consonant. -/
def openSyllable : Recipe :=
  "AC00-D788/1C"

/-- Syllables of Hangul with a trailing consonant. -/
def closedSyllable : Recipe :=
  (.runs "AC00-D7A3") \ openSyllable

/-- The parts by their names. -/
def table : List Named := [
  ⟨["cn", "control"], control⟩,
  ⟨["cr"], "D"⟩,
  ⟨["lf"], "A"⟩,
  ⟨["ex", "extend"], extend⟩,
  ⟨["sm", "spacingmark"], spacingMark⟩,
  ⟨["pp", "prepend"], prepended⟩,
  ⟨["l"], leadingJamo⟩,
  ⟨["v"], vowelJamo⟩,
  ⟨["t"], trailingJamo⟩,
  ⟨["lv"], openSyllable⟩,
  ⟨["lvt"], closedSyllable⟩,
  ⟨["ri", "regionalindicator"], Property.regionalIndicator⟩,
  ⟨["zwj"], "200D"⟩]

end Grapheme

/-! ## Words -/

namespace Word

/-- What extends a character of a word. -/
def extend : Recipe :=
  Property.graphemeExtend ∪ Category.spacingMark ∪ Property.emojiModifier

/-- Letters of Hebrew. -/
def hebrewLetter : Recipe :=
  "5D0-5EA 5EF-5F2 FB1D FB1F-FB28 FB2A-FB36 FB38-FB3C FB3E FB40-FB41 FB43-FB44 FB46-FB4F"

/-- Letters of Katakana. -/
def katakana : Recipe :=
  "3031-3035 309B-309C 30A0-30FA 30FC-30FF 31F0-31FF 32D0-32FE 3300-3357 FF66-FF9D 1AFF0-1AFF3
  1AFF5-1AFFB 1AFFD-1AFFE 1B000 1B120-1B122 1B155 1B164-1B167"

/-- Characters of Hiragana. -/
def hiragana : Recipe :=
  "3041-3096 309D-309F 1B001-1B11F 1B132 1B150-1B152 1F200"

/-- Characters of scripts that put no spaces between words. -/
def complexContext : Recipe :=
  "E01-E3A E40-E4E E81-E82 E84 E86-E8A E8C-EA3 EA5 EA7-EBD EC0-EC4 EC6 EC8-ECE EDC-EDF 1000-103F
  1050-108F 109A-109F 1780-17D3 17D7 17DC-17DD 1950-196D 1970-1974 1980-19AB 19B0-19C9 19DA
  19DE-19DF 1A20-1A5E 1A60-1A7C 1AA0-1AAD A9E0-A9EF A9FA-A9FE AA60-AAC2 AADB-AADF 11700-1171A
  1171D-1172B 1173A-1173B 1173F-11746"

/-- Letters of scripts that put spaces between words. -/
def letter : Recipe :=
  (Property.alphabetic ∪
    (.runs "2C2-2C5 2D2-2D7 2DE-2DF 2E5-2EB 2ED 2EF-2FF 55A-55C 55E 58A 5F3 70F A708-A716 A720-A721
      A789-A78A AB5B")) \
    (Property.ideographic ∪ extend ∪ hebrewLetter ∪ katakana ∪ hiragana ∪ complexContext)

/-- Characters that control the layout. -/
def format : Recipe :=
  Category.format \ (Property.prependedConcatenationMark ∪ tags ∪ (.runs "200B-200D"))

/-- Digits. -/
def numeric : Recipe :=
  Category.decimalNumber ∪ numberSigns ∪ (.runs "66B")

/-- Signs between digits. -/
def middleOfNumber : Recipe :=
  "2C 3B 37E 589 60C-60D 66C 7F8 2044 FE10 FE14 FE50 FE54 FF0C FF1B"

/-- Signs that connect words and numbers. -/
def connector : Recipe :=
  "5F 202F 203F-2040 2054 FE33-FE34 FE4D-FE4F FF3F"

/-- The parts by their names. -/
def table : List Named := [
  ⟨["le", "aletter"], letter⟩,
  ⟨["cr"], "D"⟩,
  ⟨["lf"], "A"⟩,
  ⟨["nl", "newline"], "B-C 85 2028-2029"⟩,
  ⟨["sq", "singlequote"], "27"⟩,
  ⟨["dq", "doublequote"], "22"⟩,
  ⟨["extend"], extend⟩,
  ⟨["ex", "extendnumlet"], connector⟩,
  ⟨["fo", "format"], format⟩,
  ⟨["hl", "hebrewletter"], hebrewLetter⟩,
  ⟨["ka", "katakana"], katakana⟩,
  ⟨["ml", "midletter"], "3A B7 387 55F 5F4 2027 FE13 FE55 FF1A"⟩,
  ⟨["mn", "midnum"], middleOfNumber⟩,
  ⟨["mb", "midnumlet"], "2E 2018-2019 2024 FE52 FF07 FF0E"⟩,
  ⟨["nu", "numeric"], numeric⟩,
  ⟨["ri", "regionalindicator"], Property.regionalIndicator⟩,
  ⟨["wsegspace"], "20 1680 2000-2006 2008-200A 205F 3000"⟩,
  ⟨["zwj"], "200D"⟩]

end Word

/-! ## Sentences -/

namespace Sentence

/-- What extends a character of a sentence. -/
def extend : Recipe :=
  Property.graphemeExtend ∪ Category.spacingMark ∪ (.runs "200D")

/-- Characters that control the layout. -/
def format : Recipe :=
  Category.format \ (numberSigns ∪ tags ∪ (.runs "200C-200D"))

/-- Small letters. -/
def lower : Recipe :=
  Property.lowercase \ (Property.graphemeExtend ∪ (.runs "10D0-10FA 10FD-10FF"))

/-- Capital letters. -/
def upper : Recipe :=
  (Property.uppercase ∪ Category.titlecaseLetter) \ (.runs "1C90-1CBA 1CBD-1CBF")

/-- Other letters. -/
def otherLetter : Recipe :=
  (Property.alphabetic ∪ (.runs "5F3")) \ (lower ∪ upper ∪ extend)

/-- Digits. -/
def numeric : Recipe :=
  Category.decimalNumber ∪ numberSigns ∪ (.runs "66B-66C")

/-- Signs that may end a sentence. -/
def period : Recipe :=
  "2E 2024 FE52 FF0E"

/-- Signs that end a sentence. -/
def terminator : Recipe :=
  Property.sentenceTerminal \ period

/-- Signs inside a sentence. -/
def inner : Recipe :=
  "2C-2D 3A 55D 60C-60D 7F8 1802 1808 2013-2014 3001 FE10-FE11 FE13 FE31-FE32 FE50-FE51 FE55 FE58
  FE63 FF0C-FF0D FF1A FF64"

/-- Closing signs and quotation marks. -/
def close : Recipe :=
  (Category.openPunctuation ∪ Category.closePunctuation ∪ Category.initialPunctuation ∪
    Category.finalPunctuation ∪ Property.quotationMark ∪
    (.runs "275B-2760 2E00-2E01 2E06-2E08 2E0B 1F676-1F678")) \
    (period ∪ terminator ∪ (.runs "FF02 FF07"))

/-- The parts by their names. -/
def table : List Named := [
  ⟨["cr"], "D"⟩,
  ⟨["lf"], "A"⟩,
  ⟨["ex", "extend"], extend⟩,
  ⟨["se", "sep"], "85 2028-2029"⟩,
  ⟨["fo", "format"], format⟩,
  ⟨["sp"], Property.whiteSpace \ (.runs "A D 85 2028-2029")⟩,
  ⟨["lo", "lower"], lower⟩,
  ⟨["up", "upper"], upper⟩,
  ⟨["le", "oletter"], otherLetter⟩,
  ⟨["nu", "numeric"], numeric⟩,
  ⟨["at", "aterm"], period⟩,
  ⟨["sc", "scontinue"], inner⟩,
  ⟨["st", "sterm"], terminator⟩,
  ⟨["cl", "close"], close⟩]

end Sentence

end SpokenMath.Unicode
