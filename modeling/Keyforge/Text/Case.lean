import Keyforge.Text.Class

/-!
# Letter case

Upper and lower case of a text, letter by letter. Most letters have one counterpart at a fixed
distance, and runs of neighbouring letters share it; a few letters become several.
-/

namespace Keyforge.Text

/-- Letters from `first` to `last`, every `stride`-th one, whose counterpart lies `shift` away. -/
structure CaseRun where
  first : Nat
  last : Nat
  stride : Nat
  shift : Int

namespace CaseRun

def contains (run : CaseRun) (code : Nat) : Bool :=
  run.first ≤ code && code ≤ run.last && (code - run.first) % run.stride == 0

def inverse (run : CaseRun) : CaseRun :=
  ⟨(run.first + run.shift).toNat, (run.last + run.shift).toNat, run.stride, -run.shift⟩

/-- Runs of neighbouring letters, each by its distance from the end of the one before, its length and
its shift. -/
def ofSteps (start : Nat) : List (Nat × Nat × Int) → List CaseRun
  | (gap, length, shift) :: rest =>
    ⟨start + gap, start + gap + length - 1, 1, shift⟩ :: ofSteps (start + gap + length) rest
  | [] => []

end CaseRun

/-- Where capital and small letters take turns. -/
def alternatingRanges : Ranges := .ofDigits [
  0x40868ae92895e9ebc9aaacadaee9aba9aac9aaa1f2892acaa58a2afacab1a448caa14838fa9a14c4a186e91e9148,
  0x1432822e1a148120ba533badeda9a1914cfcba7451c5e2a3c20e1ea7e19c91ababca2c1a28bcdacc3ba]

/-- Small letters whose capitals have them as small forms. -/
def casePairs : List CaseRun :=
  alternatingRanges.map (fun (first, last) => ⟨first + 1, last, 2, -1⟩) ++ CaseRun.ofSteps 0 [
  (224, 23, -32), (1, 7, -32), (0, 1, 121), (128, 1, 195), (20, 1, 97), (4, 1, 163), (3, 1, 130),
  (32, 1, 56), (6, 1, -2), (2, 1, -2), (2, 1, -2), (16, 1, -79), (21, 1, -2), (75, 2, 10815),
  (15, 1, 10783), (0, 1, 10780), (0, 1, 10782), (0, 1, -210), (0, 1, -206), (1, 2, -205),
  (1, 1, -202), (1, 1, -203), (0, 1, 42319), (3, 1, -205), (0, 1, 42315), (1, 1, -207),
  (1, 1, 42280), (0, 1, 42308), (1, 1, -209), (0, 1, -211), (0, 1, 42308), (0, 1, 10743),
  (0, 1, 42305), (2, 1, -211), (1, 1, 10749), (0, 1, -213), (2, 1, -214), (7, 1, 10727),
  (2, 1, -218), (1, 1, 42307), (0, 1, -218), (3, 1, 42282), (0, 1, -218), (0, 1, -69),
  (0, 2, -217), (0, 1, -71), (5, 1, -219), (10, 1, 42261), (0, 1, 42258), (220, 3, 130),
  (46, 1, -38), (0, 3, -37), (1, 17, -32), (1, 9, -32), (0, 1, -64), (0, 2, -63), (8, 1, -8),
  (26, 1, 7), (0, 1, -116), (60, 32, -32), (0, 16, -80), (111, 1, -15), (145, 38, -48),
  (2889, 43, 3008), (2, 3, 3008), (760, 6, -8), (2427, 1, 35332), (3, 1, 3814), (16, 1, 35384),
  (369, 8, 8), (8, 6, 8), (10, 8, 8), (8, 8, 8), (8, 6, 8), (11, 1, 8), (1, 1, 8), (1, 1, 8),
  (1, 1, 8), (8, 8, 8), (8, 2, 74), (0, 4, 86), (0, 2, 100), (0, 2, 128), (0, 2, 112),
  (0, 2, 126), (50, 2, 8), (30, 2, 8), (14, 2, 8), (3, 1, 7), (360, 1, -28), (33, 16, -16),
  (848, 26, -26), (1862, 48, -48), (5, 1, -10795), (0, 1, -10792), (153, 38, -7264),
  (1, 1, -7264), (5, 1, -7264), (31334, 1, 48), (958, 1, -928), (28, 80, -38864),
  (21377, 26, -32), (1229, 40, -40), (136, 36, -40), (155, 11, -39), (1, 15, -39), (1, 7, -39),
  (1, 2, -39), (1795, 51, -64), (3021, 32, -32), (21888, 32, -32), (31394, 34, -34)]

def upperRuns : List CaseRun := casePairs ++ CaseRun.ofSteps 0 [
  (181, 1, 743), (123, 1, -232), (77, 1, -300), (69, 1, -1), (2, 1, -1), (2, 1, -1), (38, 1, -1),
  (338, 1, 84), (124, 1, -31), (13, 1, -62), (0, 1, -57), (3, 1, -47), (0, 1, -54), (25, 1, -86),
  (0, 1, -80), (3, 1, -96), (6282, 1, -6254), (0, 1, -6253), (0, 1, -6244), (0, 2, -6242),
  (0, 1, -6243), (0, 1, -6236), (0, 1, -6181), (0, 1, 35266), (530, 1, -59), (290, 1, -7205)]

/-- The letters with an iota below, eight by eight, and their capitals without it. -/
def iotaLetters : List (Nat × Nat) :=
  [(0x1f80, 0x1f08), (0x1f88, 0x1f08), (0x1f90, 0x1f28), (0x1f98, 0x1f28), (0x1fa0, 0x1f68),
    (0x1fa8, 0x1f68)]

def upperExpansions : List (Nat × List Nat) :=
  iotaLetters.flatMap (fun (first, capital) =>
    (List.range 8).map fun i => (first + i, [capital + i, 0x399])) ++ [
  (0xdf, [0x53, 0x53]), (0x149, [0x2bc, 0x4e]), (0x1f0, [0x4a, 0x30c]),
  (0x390, [0x399, 0x308, 0x301]), (0x3b0, [0x3a5, 0x308, 0x301]), (0x587, [0x535, 0x552]),
  (0x1e96, [0x48, 0x331]), (0x1e97, [0x54, 0x308]), (0x1e98, [0x57, 0x30a]),
  (0x1e99, [0x59, 0x30a]), (0x1e9a, [0x41, 0x2be]), (0x1f50, [0x3a5, 0x313]),
  (0x1f52, [0x3a5, 0x313, 0x300]), (0x1f54, [0x3a5, 0x313, 0x301]),
  (0x1f56, [0x3a5, 0x313, 0x342]), (0x1fb2, [0x1fba, 0x399]), (0x1fb3, [0x391, 0x399]),
  (0x1fb4, [0x386, 0x399]), (0x1fb6, [0x391, 0x342]), (0x1fb7, [0x391, 0x342, 0x399]),
  (0x1fbc, [0x391, 0x399]), (0x1fc2, [0x1fca, 0x399]), (0x1fc3, [0x397, 0x399]),
  (0x1fc4, [0x389, 0x399]), (0x1fc6, [0x397, 0x342]), (0x1fc7, [0x397, 0x342, 0x399]),
  (0x1fcc, [0x397, 0x399]), (0x1fd2, [0x399, 0x308, 0x300]), (0x1fd3, [0x399, 0x308, 0x301]),
  (0x1fd6, [0x399, 0x342]), (0x1fd7, [0x399, 0x308, 0x342]), (0x1fe2, [0x3a5, 0x308, 0x300]),
  (0x1fe3, [0x3a5, 0x308, 0x301]), (0x1fe4, [0x3a1, 0x313]), (0x1fe6, [0x3a5, 0x342]),
  (0x1fe7, [0x3a5, 0x308, 0x342]), (0x1ff2, [0x1ffa, 0x399]), (0x1ff3, [0x3a9, 0x399]),
  (0x1ff4, [0x38f, 0x399]), (0x1ff6, [0x3a9, 0x342]), (0x1ff7, [0x3a9, 0x342, 0x399]),
  (0x1ffc, [0x3a9, 0x399]), (0xfb00, [0x46, 0x46]), (0xfb01, [0x46, 0x49]),
  (0xfb02, [0x46, 0x4c]), (0xfb03, [0x46, 0x46, 0x49]), (0xfb04, [0x46, 0x46, 0x4c]),
  (0xfb05, [0x53, 0x54]), (0xfb06, [0x53, 0x54]), (0xfb13, [0x544, 0x546]),
  (0xfb14, [0x544, 0x535]), (0xfb15, [0x544, 0x53b]), (0xfb16, [0x54e, 0x546]),
  (0xfb17, [0x544, 0x53d])]

def lowerRuns : List CaseRun := casePairs.map CaseRun.inverse ++ CaseRun.ofSteps 0 [
  (453, 1, 1), (2, 1, 1), (2, 1, 1), (38, 1, 1), (513, 1, -60), (6825, 1, -7615), (233, 8, -8),
  (8, 8, -8), (8, 8, -8), (12, 1, -9), (15, 1, -9), (47, 1, -9), (297, 1, -7517), (3, 1, -8383),
  (0, 1, -8262)]

def lowerExpansions : List (Nat × List Nat) :=
  [(0x130, [0x69, 0x307])]

def changeCase (runs : List CaseRun) (expansions : List (Nat × List Nat)) (c : Char) : List Char :=
  match expansions.lookup c.toNat with
  | some codes => codes.map Char.ofNat
  | none =>
    match runs.find? (·.contains c.toNat) with
    | some run => [Char.ofNat (c.toNat + run.shift).toNat]
    | none => [c]

def upperChar (c : Char) : List Char :=
  if c.toNat < 0x80 then [c.toUpper] else changeCase upperRuns upperExpansions c

def lowerChar (c : Char) : List Char :=
  if c.toNat < 0x80 then [c.toLower] else changeCase lowerRuns lowerExpansions c

def upper (s : String) : String := String.ofList (s.toList.flatMap upperChar)

def lowerFrom (before : List Char) : List Char → List Char
  | [] => []
  | c :: rest =>
    (if c == 'Σ' then [if isFinalSigma before rest then 'ς' else 'σ'] else lowerChar c) ++
      lowerFrom (c :: before) rest

def lower (s : String) : String := String.ofList (lowerFrom [] s.toList)

end Keyforge.Text
