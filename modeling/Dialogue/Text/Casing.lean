import Dialogue.Text.Ranges

/-!
Letter case beyond ASCII.

`upper` is the full upper-case mapping, in which some letters become two or three. `fold` is simple
case folding: two characters are the same up to case iff they fold to the same one.
-/
namespace Dialogue.Text

/-- The letters beyond ASCII whose upper case is one other letter. -/
def upperRuns : List Run := Run.decode [
  "51 1 1 15a 17 n 1 1t o 7 1 1t 7 1 1 6q 2 o 2 3 1c 1 1 cx 2 3 2 3 7 8 2 3 h n 2 3 1b 3 2 3",
  "5 1 1 gp 1 1 1 au 3 2 2 3 5 1 1 3 4 1 1 3 6 1 1 3 3 1 1 5e 4 1 1 3 1 1 1 92 4 1 1 78 3 3 2",
  "3 7 1 1 3 5 1 1 3 3 1 1 3 4 2 2 3 5 1 1 3 4 1 1 3 2 1 1 34 6 1 1 3 1 1 1 5 2 1 1 3 1 1 1 5",
  "2 1 1 3 1 1 1 5 2 8 2 3 f 1 1 4f 2 9 2 3 j 1 1 3 1 1 1 5 2 1 1 3 4 k 2 3 16 9 2 3 p 1 1 3",
  "3 2 1 gou 3 1 1 3 5 5 2 3 9 1 1 gn2 1 1 1 gmw 1 1 1 gn0 1 1 1 bp 1 1 1 bh 2 2 1 bf 3 1 1",
  "b9 2 1 1 bb 1 1 1 1tb2 4 1 1 bf 1 1 1 1tau 2 1 1 bj 2 1 1 1t8w 1 1 1 1tag 2 1 1 bn 1 1 1",
  "br 1 1 1 1tag 1 1 1 gku 1 1 1 1taa 3 1 1 br 2 1 1 gl6 1 1 1 bv 3 1 1 bx 8 1 1 gjy 3 1 1 c5",
  "2 1 1 1tae 1 1 1 c5 4 1 1 1t90 1 1 1 c5 1 1 1 3v 1 2 1 c3 2 1 1 3z 6 1 1 c7 b 1 1 1t7u 1 1",
  "1 1t7o 4n 1 1 4o 18 2 2 3 6 1 1 3 4 3 1 78 1d 1 1 25 1 3 1 23 4 h 1 1t h 1 1 1r 1 9 1 1t 9",
  "1 1 3l 1 2 1 3j 3 1 1 3h 1 1 1 37 4 1 1 2n 1 1 1 31 1 1 1 h 2 c 2 3 n 1 1 4t 1 1 1 4h 1 1",
  "1 e 1 1 1 6h 2 1 1 5d 3 1 1 3 3 1 1 3 1h w 1 1t w g 1 4h h h 2 3 16 r 2 3 1j 7 2 3 d 1 1 v",
  "2 1c 2 3 40 12 1 2p 29b 17 1 4n4 19 3 1 4n4 l7 6 1 h 1oo 1 1 9nh 1 1 1 9nf 1 1 1 9mx 1 2 1",
  "9mt 2 1 1 9mv 1 1 1 9mh 1 1 1 9jf 1 1 1 1if8 6p 1 1 1iiw 4 1 1 5vw h 1 1 1ils 37 23 2 3 4a",
  "1 1 3b 6 1c 2 3 2n 8 1 g g 6 1 g g 8 1 g g 8 1 g g 6 1 g h 4 2 g f 8 1 g g 2 1 44 2 4 1 4s",
  "4 2 1 5k 2 2 1 74 2 2 1 68 2 2 1 70 1g 2 1 g e 1 1 b4b i 2 1 g g 2 1 g 5 1 1 e a1 1 1 1l y",
  "g 1 x k 1 1 3 ng q 1 1h 1gg 1c 1 2p 1d 1 1 3 4 1 1 gnr 1 1 1 gnl 2 3 2 3 b 1 1 3 3 1 1 3 b",
  "1e 2 3 2z 2 2 3 7 1 1 3 d 12 1 b7l 13 1 1 b7l 6 1 1 b7l nx0 n 2 3 1s e 2 3 4i 7 2 3 g v 2",
  "3 1z 2 2 3 5 5 2 3 d 1 1 3 5 2 2 3 3 1 1 2o 3 a 2 3 u 8 2 3 j 2 2 3 9 1 1 3 6 2 2 3 v 1 1",
  "3 nx 1 1 1fl t 28 1 1nz5 gk1 q 1 1t yv 14 1 29 4w 10 1 29 5b j 2 27 1 5 2 27 c 7 2 27 g 3",
  "2 27 8 1 1 27 1dw 1f 1 3l 2dc w 1 1t gww w 1 1t o8y y 1 1x"]

/-- The letters whose upper case is more than one letter, each with those letters. -/
def upperWords : List (List Nat) :=
  ([
    "67.2b.2b 95.jg.26 ds.22.lo pc.pl.lk.ld q8.px.lk.ld 13b.111.11u 61i.20.mp 61j.2c.lk",
    "61k.2f.lm 61l.2h.lm 61m.1t.ji 66o.px.lv 66q.px.lv.lc 66s.px.lv.ld 66u.px.lv.n6 680.64o.pl",
    "681.64p.pl 682.64q.pl 683.64r.pl 684.64s.pl 685.64t.pl 686.64u.pl 687.64v.pl 688.64o.pl",
    "689.64p.pl 68a.64q.pl 68b.64r.pl 68c.64s.pl 68d.64t.pl 68e.64u.pl 68f.64v.pl 68g.65k.pl",
    "68h.65l.pl 68i.65m.pl 68j.65n.pl 68k.65o.pl 68l.65p.pl 68m.65q.pl 68n.65r.pl 68o.65k.pl",
    "68p.65l.pl 68q.65m.pl 68r.65n.pl 68s.65o.pl 68t.65p.pl 68u.65q.pl 68v.65r.pl 68w.67c.pl",
    "68x.67d.pl 68y.67e.pl 68z.67f.pl 690.67g.pl 691.67h.pl 692.67i.pl 693.67j.pl 694.67c.pl",
    "695.67d.pl 696.67e.pl 697.67f.pl 698.67g.pl 699.67h.pl 69a.67i.pl 69b.67j.pl 69e.69m.pl",
    "69f.pd.pl 69g.p2.pl 69i.pd.n6 69j.pd.n6.pl 69o.pd.pl 69u.6a2.pl 69v.pj.pl 69w.p5.pl",
    "69y.pj.n6 69z.pj.n6.pl 6a4.pj.pl 6aa.pl.lk.lc 6ab.pl.lk.ld 6ae.pl.n6 6af.pl.lk.n6",
    "6aq.px.lk.lc 6ar.px.lk.ld 6as.pt.lv 6au.px.n6 6av.px.lk.n6 6b6.6be.pl 6b7.q1.pl 6b8.pb.pl",
    "6ba.q1.n6 6bb.q1.n6.pl 6bg.q1.pl 1dkw.1y.1y 1dkx.1y.21 1dky.1y.24 1dkz.1y.1y.21",
    "1dl0.1y.1y.24 1dl1.2b.2c 1dl2.2b.2c 1dlf.11g.11i 1dlg.11g.111 1dlh.11g.117 1dli.11q.11i",
    "1dlj.11g.119"] : List String).flatMap fun line =>
    (splitChars ' ' line.toList).map fun word => (splitChars '.' word).map natural36

/-- The characters beyond ASCII that fold to another one. -/
def foldRuns : List Run := Run.decode [
  "51 1 1 172 b n 1 1s o 7 1 1s 14 o 2 2 1e 3 2 2 7 8 2 2 h n 2 2 1a 1 1 6r 1 3 2 2 6 1 1 ex",
  "2 1 1 bo 1 2 2 2 4 1 1 bg 1 1 1 2 2 2 1 be 2 1 1 2 3 1 1 4e 1 1 1 b8 1 1 1 ba 1 1 1 2 2 1",
  "1 be 1 1 1 bi 2 1 1 bq 1 1 1 bm 1 1 1 2 4 1 1 bq 1 1 1 bu 2 1 1 bw 1 3 2 2 6 1 1 c4 1 1 1",
  "2 2 1 1 c4 3 1 1 2 2 1 1 c4 1 1 1 2 2 2 1 c2 2 2 2 2 4 1 1 c6 1 1 1 2 4 1 1 2 8 1 1 4 1 1",
  "1 2 2 1 1 4 1 1 1 2 2 1 1 4 1 9 2 2 j 9 2 2 j 1 1 4 1 2 2 2 4 1 1 5f 1 1 1 35 1 k 2 2 14 1",
  "1 79 2 9 2 2 o 1 1 gnq 1 1 1 2 2 1 1 93 1 1 1 gnk 3 1 1 2 2 1 1 av 1 1 1 3u 1 1 1 3y 1 5 2",
  "2 73 1 1 6g 17 2 2 2 6 1 1 2 9 1 1 6g 7 1 1 24 2 3 1 22 4 1 1 3k 2 2 1 3i 3 h 1 1s i 9 1",
  "1s v 1 1 2 d 1 1 g 1 1 1 1p 1 1 1 1f 4 1 1 v 1 1 1 19 2 c 2 2 o 1 1 31 1 1 1 2p 3 1 1 3d 1",
  "1 1 3l 2 1 1 2 2 1 1 f 1 1 1 2 3 3 1 79 3 g 1 4g g w 1 1s 28 h 2 2 16 r 2 2 1i 1 1 u 1 7 2",
  "2 f 1c 2 2 2p 12 1 2o 29b 12 1 b7k 13 1 1 b7k 6 1 1 b7k mj 6 1 h 1oo 1 1 9lp 1 1 1 9ln 1 1",
  "1 9l5 1 2 1 9l1 2 1 1 9l3 1 1 1 9kp 1 1 1 9jd 1 1 1 1ifa 8 17 1 4n5 19 3 1 4n5 8z 23 2 2",
  "4b 1 1 39 3 1 1 br3 2 1c 2 2 2w 8 1 h g 6 1 h g 8 1 h g 8 1 h g 6 1 h h 4 2 h f 8 1 h w 8",
  "1 h g 8 1 h g 8 1 h g 2 1 h 2 2 1 45 2 1 1 j 2 1 1 b2j a 4 1 4t 4 1 1 j c 2 1 h 2 2 1 5l e",
  "2 1 h 2 2 1 69 2 1 1 f c 2 1 75 2 2 1 71 2 1 1 j 8a 1 1 bln 4 1 1 cxr 1 1 1 cr1 7 1 1 1k",
  "1a g 1 w z 1 1 2 mr q 1 1g 1fu 1c 1 2o 2o 1 1 2 2 1 1 gkv 1 1 1 5vx 1 1 1 gjz 3 3 2 2 6 1",
  "1 gmx 1 1 1 gl7 1 1 1 gn3 1 1 1 gn1 2 1 1 2 3 1 1 2 9 2 1 gov 2 1e 2 2 2z 2 2 2 7 1 1 2",
  "nym n 2 2 1s e 2 2 4i 7 2 2 g v 2 2 1z 2 2 2 4 1 1 1iix 1 5 2 2 d 1 1 2 2 1 1 1t8x 3 2 2 2",
  "6 a 2 2 k 1 1 1tah 1 1 1 1tb3 1 1 1 1tav 1 1 1 1tab 1 1 1 1tah 2 1 1 1t7p 1 1 1 1t91 1 1 1",
  "1t7v 1 1 1 1fk 1 8 2 2 g 1 1 2p 1 1 1 1taf 1 1 1 1ilt 1 2 2 2 9 1 1 2 6 2 2 2 v 1 1 2 or",
  "28 1 1nz5 gj5 q 1 1s yn 14 1 28 4w 10 1 28 5c j 2 26 1 5 2 26 c 7 2 26 g 3 2 26 8 1 1 26",
  "1d7 1f 1 3k 2e8 w 1 1s gww w 1 1s o8w y 1 1w"]

/-- The upper case of a character. -/
def upperChar (c : Char) : List Char :=
  if c.toNat < 128 then [c.toUpper]
  else
    match upperWords.find? (fun word => word.head? = some c.toNat) with
    | some word => word.tail.map Char.ofNat
    | none => [Char.ofNat (Run.apply upperRuns c.toNat)]

/-- The upper case of a text. -/
def upper (s : String) : String := String.ofList (s.toList.flatMap upperChar)

/-- The code point that a code point folds to. -/
def foldPoint (n : Nat) : Nat :=
  if n < 128 then (Char.ofNat n).toLower.toNat else Run.apply foldRuns n

/-- The code points that are the same as `n` up to case, `n` among them. -/
def caseOrbit (n : Nat) : List Nat :=
  let base := foldPoint n
  let ascii := if 97 ≤ base ∧ base ≤ 122 then [base - 32] else []
  let others := foldRuns.filterMap fun r =>
    let source := ((base : Int) - r.shift).toNat
    if r.moves source && r.target source = base then some source else none
  n :: base :: ascii ++ others

/-- Equality of ASCII letters up to case, and of other characters as they are. -/
def sameIgnoringAsciiCase (s t : String) : Bool :=
  s.toList.map Char.toLower = t.toList.map Char.toLower

end Dialogue.Text
