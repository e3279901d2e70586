import Dialogue.Text.Ranges

/-!
Letters, digits and word characters.

`isAlphabetic`, `isNumeric`, `isDecimal` and `isWord` are properties of the Unicode standard; on
ASCII they are decided directly and beyond it by tables.
-/
namespace Dialogue.Text

/-- Code points beyond ASCII with the property Alphabetic. -/
def alphabeticRanges : Ranges := .decode [
  "4q 0 a 0 4 0 5 m 1 u 1 cp 4 b e 4 7 0 1 0 2e 0 16 4 1 1 2 3 1 0 6 0 1 2 1 0 1 j 1 2a 1 3u",
  "8 4l 1 11 2 0 6 14 13 d 1 0 1 1 1 1 1 0 8 q 4 3 t a 5 1j 1 6 e 2t 1 7 4 7 4 2 a 2 2 0 g 1b",
  "d 2s o w 9 1 4 0 5 n 2 i j o 7 a 5 n 1 5 h 15 a b 3 6 6 23 1 f 1 2 4 e d i 1 7 2 1 2 l 1 6",
  "1 0 3 3 3 7 2 1 2 1 1 0 8 0 4 1 1 4 c 1 a 0 4 2 1 5 4 1 2 l 1 6 1 1 1 1 1 1 4 4 4 1 2 1 4",
  "0 7 3 1 0 h 5 b 2 1 8 1 2 1 l 1 6 1 1 1 4 3 8 1 2 1 1 3 0 f 3 l 3 4 2 1 7 2 1 2 l 1 6 1 1",
  "1 4 3 7 2 1 2 1 9 1 4 1 1 4 d 0 g 1 1 5 3 2 1 3 3 1 1 0 1 1 3 1 3 2 3 b 4 4 3 2 1 2 3 0 6",
  "0 14 c 1 2 1 m 1 f 3 7 1 2 1 2 8 1 1 2 2 0 2 3 s 3 1 7 1 2 1 m 1 9 1 4 3 7 1 2 1 2 8 1 6 1",
  "1 3 d 2 c c 1 2 1 14 2 7 1 2 1 2 1 0 5 3 7 4 m 5 1 2 1 h 3 n 1 8 1 0 2 6 8 5 1 0 1 7 i 1 d",
  "1l 5 6 6 0 1f 1 1 0 1 4 1 n 1 0 1 i 1 2 2 4 1 0 6 0 e 3 w 0 1r 7 1 z 4 i 4 f 1 z 1v 1i 1 0",
  "2 4 g 1r a 3 2 11 1 0 5 0 2 16 1 98 1 3 2 6 1 0 1 3 2 14 1 3 2 w 1 3 2 6 1 0 1 3 2 e 1 1k",
  "1 3 2 1u 11 f g 2d 2 5 3 h7 2 g 1 p 5 22 3 a 7 j b k c j c c 1 2 1 1 c 1f 2 i e 0 4 0 1v",
  "2g 7 16 5 1x a u 1 b 4 8 n t 2 4 b 17 4 p 1i r 4 1q 2 j 1e 0 n 1 b 2 1d 1f 1 e 1 7 1f 15 2",
  "3 a 17 1 a e 1i m 2 a z 2 8 7 16 2 2 15 3 1 5 1 1 3 0 5 5b 13 d b 7p 2 5 2 11 2 5 2 7 1 0",
  "1 0 1 0 1 u 2 1g 1 6 1 0 3 2 1 6 3 3 2 5 4 c 5 2 1 6 38 0 d 0 g c 2t 0 4 0 2 9 1 0 3 4 6 0",
  "1 0 1 0 1 3 1 a 2 3 5 4 4 0 h 14 ml 1f 1ee 6c 6 3 3 1 c 11 1 0 5 0 2 1j 7 0 g m 9 6 1 6 1",
  "6 1 6 1 6 1 6 1 6 1 6 1 v 1b 0 d1 2 p 8 7 4 2 4 4 2d 6 2 1 2h 1 3 5 16 1 2l h v 1c f e8",
  "533 1s h3g 1v 19 2 7g 3 f a 1 k 1a 5 7 3 34 13 8 2 2u 2 1r 5 1 1 0 1 4 o j 1 w o 1f c 1v 1",
  "0 18 5 3 0 1 2 a w 5 y d s 3 1e 1 b f 0 g f a 4 1 1i 9 d i m 3 1w 1 0 1 0 o 2 2 f 2 3 b 5",
  "2 5 2 5 9 6 1 6 1 16 1 d 6 3e l 8mb c m 4 1c 6is a5 2 2x 12 6 c 4 5 b 1 c 1 4 1 0 1 1 1 1",
  "1 2z x a2 i 1r 2 1h 14 b 38 4 1 3q 10 p 6 p b 2g 3 5 2 5 2 5 2 2 z b 1 p 1 i 1 1 1 e 2 d y",
  "3e 1x 1g 7f s 3 1c 1b v d t 5 16 5 t 2 z 4 7 1 4 16 4d i z 4 z 4 13 8 1f c a 1 e 1 6 1 1 1",
  "a 1 e 1 6 1 1 1v 8m 9 l a 7 o 5 1 15 1 8 1x 5 2 0 1 17 1 1 3 0 2 m a m 9 u 1t i 1 1 a l a",
  "p 1y 1j 6 1 1s 3 1 1 5 7 1 2 1 s 16 s 3 s z 7 1 r r 1h a l a i d h 32 20 1j 1e d 1e d 13",
  "9k 15 1 1 3 1 26 s a 0 8 l 16 h 1a k r m 9 1x 17 4 a 1k 9 0 d o n 1e h 3 8 y 3 0 9 1r 1 3",
  "9 1 a 0 1 0 z h 1 x 2 0 6 3 1q 6 1 0 1 3 1 e 1 9 7 1k n 3 1 7 2 1 2 l 1 6 1 1 1 4 3 7 2 1",
  "2 1 3 0 6 0 5 6 4c 1t 1 2 1 3 k 2 u 1t 2 1 1 0 54 1h 2 6 p 5 y 1q 1 0 3 0 1n 1h 2 0 1z q 2",
  "d l 6 55 1k 2v 1r v 7 2 0 2 7 1 1 1 t 1 1 2 1 2 3 2l 7 2 19 2 5 1 0 1 1 r 1e 2 9 h 1z 5 0",
  "i 20 7b 8 1 18 1 6 1 0 1d t 2 l 1 d 21 6 1 1 1 17 3 0 1 1 1 2 1 0 2 1 o 5 1 1 1 10 1 1 1 3",
  "1 0 93 m 9 g 1 14 3 2 33 0 27 pl 2u 32 h 5f 218 2o f tr h 5 33t g6 6nt fs 7 u h 26 h t i",
  "1b g 3 v k 5 i j4 1r 3k 22 4 1k 7 g 1s 1 1 0 c 1 e 4qf 8 yd 16 8 6w7 3 1 6 1 1 1 82 f 0 t",
  "2 2 0 e 3 8 az 1s4 2y 5 c 3 8 7 9 4 0 4m9 2c 1 1y 1 1 2 0 2 1 2 3 1 b 1 0 1 6 1 1s 1 3 2 7",
  "1 6 1 r 1 3 1 4 1 0 3 6 1 9f 2 o 1 o 1 u 1 o 1 u 1 o 1 u 1 o 1 u 1 o 1 7 1f8 u 6 5 5x 6 1",
  "g 2 6 1 1 1 4 5 1p x 0 34 18 a 6 g 0 8x t i 17 dg r l0 6 1 3 1 1 1 e 1 5g 1n 1v 3 0 3 0 xg",
  "3 1 q 1 1 1 0 2 0 1 9 1 3 1 0 1 0 6 0 4 0 1 0 1 0 1 2 1 1 1 0 2 0 1 0 1 0 1 0 1 0 1 1 1 0",
  "2 3 1 6 1 3 1 3 1 0 1 9 1 g 5 2 1 4 1 g hg p 6 p 6 p 2uu wyn w 37d 6 65 2 4g1 e 5rk f h9",
  "1wi f1 15u 3t6 5 38f"]

/-- Code points beyond ASCII in one of the number categories (Nd, Nl, No). -/
def numericRanges : Ranges := .decode [
  "4y 1 5 0 2 2 141 9 3q 9 5i 9 bg 9 3a 9 4 5 30 9 3a 9 3a 9 2 5 32 c 37 9 8 6 2v 9 2w 6 7 i",
  "31 9 2o 9 3a 9 1y j 7g 9 1y 9 jz j oh 2 6n 9 6 9 m 9 8c 9 3k a 4l 9 6 9 52 9 2e 9 3q 9 6 9",
  "t2 0 3 5 6 9 5i 1e 2 4 k6 1n 26 l hi t 12h 0 ll 0 p 8 e 2 9j 3 3u 9 u 7 1 e w 9 13 e msg 9",
  "58 9 8w 5 4a 9 12 9 5i 9 m 9 2e 9 ba 9 geu 9 dp 18 c 1k h 1 9h q 10 3 t 0 8 0 3q 4 5m 9 q6",
  "7 p 6 13 8 23 4 m 5 4g 1 2 f 2 19 1s 8 1g 1 u 2 23 4 2w 7 o 7 15 6 96 5 1c 9 86 u 4e 9 16",
  "3 34 6 3q t 3k 9 1o 9 40 9 7 j 6z 9 9i 9 3a 9 ae 9 2u 9 2u b bo i 2l 9 l2 s 6b 9 1y 9 bq 9",
  "2u k tn 32 dtd 9 2e 9 3q 9 1 6 m6 m js9 j c j 30 o ut 1d 1ts 9 bq 9 dy 9 r1 8 3k 9 lz 1m 1",
  "2 1 3 24 18 1 e qq c 25f 9"]

/-- Code points beyond ASCII in the category of decimal digits (Nd). -/
def decimalRanges : Ranges := .decode [
  "19c 9 3q 9 5i 9 bg 9 3a 9 3a 9 3a 9 3a 9 3a 9 3a 9 3a 9 3a 9 3a 9 2o 9 3a 9 1y 9 7q 9 1y 9",
  "1fq 9 12 9 8c 9 3k 9 4m 9 6 9 52 9 2e 9 3q 9 6 9 r7q 9 iu 9 12 9 5i 9 m 9 2e 9 ba 9 geu 9",
  "13a 9 1om 9 mk 9 3k 9 1o 9 40 9 7q 9 9i 9 3a 9 ae 9 2u 9 2u 9 bq 9 2u 9 l2 9 6u 9 1y 9 bq",
  "9 eti 9 2e 9 3q 9 lf8 1d 1ts 9 bq 9 dy 9 uu 9 3o6 9"]

/-- Marks, connector punctuation and join controls beyond ASCII that are neither alphabetic nor
numeric. -/
def joiningRanges : Ranges := .decode [
  "lc 1w 1 15 7n 6 7b u 4o 0 3q 1 9 2 2b a 4g 8 9 0 q 1 j 0 17 2 1o 7 16 9 c 1 8 5 24 0 g 0 3",
  "3 2v 0 g 0 1c 0 1p 0 g 0 32 0 g 0 1b 2 1o 0 g 0 7 0 3b 0 32 0 g 0 32 0 g 0 31 1 g 0 3g 0",
  "3g 5 1 0 2z 0 d 4 1 0 21 1 r 0 1 0 1 0 4 1 1w 0 1 1 1q 0 34 0 1 1 ma 2 qc 1 u 0 3j 1 j a 9",
  "0 19 2 1 0 89 2 84 0 k 7 2 0 1c e 2 a 2w 0 f 0 12 8 1i 1 1m 0 b 1 1v 0 48 2 1 k 4 0 6 0 2",
  "2 5i 12 e a ek 1 1d 1 j 0 3f w 2da 2 3x 0 iy 5 2x 1 n9w 3 9 1 36 1 7o 0 11 0 47 0 r h 1l 2",
  "11 0 2n 0 c 0 72 0 1 0 1g 0 6t 1 g7m f g f 3 1 o 2 6n 0 jh 0 6a 0 1g7 2 4 0 4l 1 t2 2 1y a",
  "1d 3 5c 0 15 0 e 0 1l 1 3c 1 1q 0 24 0 8 3 2w 1 4y 1 28 1 g 0 o 6 3 4 5p 0 3 0 n 0 2r 1 6z",
  "1 3i 0 3a 1 37 0 7h 1 76 1 4 0 4c 0 2a 1 i 0 28 1 bp 0 76 0 1 1 29 0 bt 1 459 0 6 e asa 4",
  "1n 6 x9 0 f5k 0 3mq 19 2 m f2 4 3 5 8 7 2 6 u 3 44 2 1iz 1i 4 1d 8 0 e 0 m 4 1 e 1a8 6 af",
  "0 1p 3 e4 3 rk 6 31 2 1 2 gzhx 6n"]

/-- A letter of any script. -/
def isAlphabetic (c : Char) : Bool :=
  if c.toNat < 128 then c.isAlpha else alphabeticRanges.contains c

/-- A digit or another number of any script. -/
def isNumeric (c : Char) : Bool := if c.toNat < 128 then c.isDigit else numericRanges.contains c

/-- A letter or a number of any script. -/
def isAlphanumeric (c : Char) : Bool := isAlphabetic c || isNumeric c

/-- A decimal digit of any script. -/
def isDecimal (c : Char) : Bool := if c.toNat < 128 then c.isDigit else decimalRanges.contains c

/-- A word character: alphabetic, a decimal digit, a mark, connector punctuation or a join
control. -/
def isWord (c : Char) : Bool :=
  if c.toNat < 128 then c.isAlphanum || c = '_'
  else isAlphabetic c || isDecimal c || joiningRanges.contains c

set_option maxRecDepth 2000 in
theorem alphabeticRanges_omits : alphabeticRanges.omits blankPoints = true := by
  rw [alphabeticRanges, Ranges.decode]
  repeat rw [numbers36_cons]
  rw [numbers36_nil]
  decide +kernel

set_option maxRecDepth 2000 in
theorem numericRanges_omits : numericRanges.omits blankPoints = true := by
  rw [numericRanges, Ranges.decode]
  repeat rw [numbers36_cons]
  rw [numbers36_nil]
  decide +kernel

/-- No letter and no number of any script is a blank. -/
theorem isAlphanumeric_of_isBlank {c : Char} (h : isBlank c = true) : isAlphanumeric c = false := by
  have hpoint := toNat_mem_blankPoints h
  have hascii : ∀ n ∈ blankPoints, n < 128 → (Char.ofNat n).isAlpha = false ∧
      (Char.ofNat n).isDigit = false := by decide +kernel
  have hlow := hascii _ hpoint
  rw [Char.ofNat_toNat] at hlow
  have halpha := Ranges.has_of_omits alphabeticRanges_omits hpoint
  have hnumber := Ranges.has_of_omits numericRanges_omits hpoint
  by_cases hc : c.toNat < 128
  · simp [isAlphanumeric, isAlphabetic, isNumeric, hc, hlow hc]
  · simp [isAlphanumeric, isAlphabetic, isNumeric, hc, Ranges.contains, halpha, hnumber]

end Dialogue.Text
