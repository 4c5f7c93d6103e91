import Mathlib.Data.List.Basic

/-!
Files of text lines, as bytes. A writer encodes its characters as UTF-8 and adds
them at the end of the file; a reader decodes the whole file and cuts it into
lines, or takes the bytes as they come and cuts them at the newline byte.
-/
namespace Cowork.TextFiles
open List

def encode (cs : List Char) : List UInt8 := cs.flatMap String.utf8EncodeChar

def decode (bytes : List UInt8) : Option (List Char) := bytes.toByteArray.utf8Decode?.map Array.toList

@[simp] theorem encode_nil : encode [] = [] := rfl
@[simp] theorem encode_append (front back : List Char) : encode (front ++ back) = encode front ++ encode back := by
  simp [encode]
theorem encode_cons (c : Char) (rest : List Char) : encode (c :: rest) = String.utf8EncodeChar c ++ encode rest := by
  simp [encode]

@[simp] theorem decode_encode (cs : List Char) : decode (encode cs) = some cs := by
  have core : (encode cs).toByteArray.utf8Decode? = some cs.toArray := utf8Decode?_utf8Encode
  rw [decode,core]
  rfl

theorem encode_injective {front back : List Char} (same : encode front = encode back) : front = back := by
  have decoded := congrArg decode same
  simpa using decoded

theorem encode_decode {bytes : List UInt8} {cs : List Char} (decoded : decode bytes = some cs) : encode cs = bytes := by
  obtain ⟨chars,found,rfl⟩ := Option.map_eq_some_iff.mp decoded
  have core := ByteArray.utf8Encode_get_utf8Decode? (h := by rw [found]; rfl)
  simp only [found] at core
  have data := congrArg (fun b => b.data.toList) core
  simpa [List.utf8Encode,encode] using data

theorem prefix_of_encode {front whole : List Char} {rest : List UInt8} (bytes : encode front ++ rest = encode whole) :
    front <+: whole := by
  apply isPrefix_of_utf8Encode_append_eq_utf8Encode rest.toByteArray
  simp only [List.utf8Encode,← toByteArray_append]
  exact congrArg List.toByteArray bytes

theorem newline_ne_ofNat {n : Nat} (low : 128 ≤ n) (high : n < 256) : (10 : UInt8) ≠ UInt8.ofNat n := by
  intro same
  have values := congrArg UInt8.toNat same
  rw [UInt8.toNat_ofNat_of_lt' high] at values
  have ten : (10 : UInt8).toNat = 10 := rfl
  omega

theorem newline_mem_encodeChar (c : Char) : 10 ∈ String.utf8EncodeChar c ↔ c = '\n' := by
  have newline : c = '\n' ↔ c.val.toNat = 10 := by
    constructor
    · rintro rfl
      rfl
    · intro code; exact Char.ext (UInt32.toNat_inj.mp code)
  rw [newline]
  simp only [String.utf8EncodeChar]
  split_ifs with one two three
  · rw [mem_singleton]
    constructor
    · intro same
      have values := congrArg UInt8.toNat same
      rw [UInt8.toNat_ofNat_of_lt' (Nat.lt_of_le_of_lt one (by decide))] at values
      exact values.symm
    · intro code
      rw [code]; rfl
  all_goals grind only [mem_cons,not_mem_nil,newline_ne_ofNat]

theorem newline_mem_encode (cs : List Char) : 10 ∈ encode cs ↔ '\n' ∈ cs := by
  grind only [encode,mem_flatMap,newline_mem_encodeChar]

/-- The characters that `str.splitlines` ends a line at. -/
def lineBreak (c : Char) : Bool :=
  c ∈ ['\n','\r','\x0b','\x0c','\x1c','\x1d','\x1e','\u0085','\u2028','\u2029']

def consLine (c : Char) : List (List Char) → List (List Char)
  | [] => [[c]]
  | line :: more => (c :: line) :: more

/-- `text.splitlines()`. -/
def splitlines : List Char → List (List Char)
  | [] => []
  | [c] => if lineBreak c then [[]] else [[c]]
  | c :: d :: rest =>
    if c = '\r' ∧ d = '\n' then [] :: splitlines rest
    else if lineBreak c then [] :: splitlines (d :: rest)
    else consLine c (splitlines (d :: rest))

def universalNewlines : List Char → List Char
  | [] => []
  | [c] => if c = '\r' then ['\n'] else [c]
  | c :: d :: rest =>
    if c = '\r' then if d = '\n' then '\n' :: universalNewlines rest else '\n' :: universalNewlines (d :: rest)
    else c :: universalNewlines (d :: rest)

/-- `path.read_text(encoding="utf-8")`, nothing when the bytes are not UTF-8. -/
def readText (bytes : List UInt8) : Option (List Char) := (decode bytes).map universalNewlines

theorem universalNewlines_of_no_return {cs : List Char} (none : '\r' ∉ cs) : universalNewlines cs = cs := by
  induction cs with
  | nil => rfl
  | cons c rest ih =>
    simp only [mem_cons] at none
    cases rest <;> grind only [universalNewlines]

def Unbroken (cs : List Char) : Prop := ∀ c ∈ cs, lineBreak c = false

instance (cs : List Char) : Decidable (Unbroken cs) := List.decidableBAll (fun c => lineBreak c = false) cs

theorem Unbroken.of_append {front back : List Char} (whole : Unbroken (front ++ back)) : Unbroken front :=
  fun c inside => whole c (mem_append_left _ inside)

theorem splitlines_cons_break {c : Char} (ends : lineBreak c = true) (other : c ≠ '\r') (rest : List Char) :
    splitlines (c :: rest) = [] :: splitlines rest := by
  cases rest with
  | nil => simp [splitlines,ends]
  | cons d more => simp [splitlines,ends,other]

theorem splitlines_cons_plain {c : Char} (plain : lineBreak c = false) (rest : List Char) :
    splitlines (c :: rest) = consLine c (splitlines rest) := by
  have other : c ≠ '\r' := by rintro rfl; exact absurd plain (by decide)
  cases rest with
  | nil => simp [splitlines,plain,consLine]
  | cons d more => simp [splitlines,plain,other]

theorem splitlines_line {line : List Char} (plain : Unbroken line) (rest : List Char) :
    splitlines (line ++ '\n' :: rest) = line :: splitlines rest := by
  induction line with
  | nil => exact splitlines_cons_break (by decide) (by decide) rest
  | cons c more ih =>
    have tail : Unbroken more := fun d inside => plain d (mem_cons_of_mem _ inside)
    rw [cons_append,splitlines_cons_plain (plain c (by simp)),ih tail]; rfl

theorem splitlines_unbroken {line : List Char} (plain : Unbroken line) :
    splitlines line = if line = [] then [] else [line] := by
  induction line with
  | nil => rfl
  | cons c more ih => grind [Unbroken,splitlines_cons_plain,consLine]

def lines (texts : List (List Char)) : List Char := texts.flatMap (· ++ ['\n'])

@[simp] theorem lines_nil : lines [] = [] := rfl
@[simp] theorem lines_cons (text : List Char) (more : List (List Char)) :
    lines (text :: more) = text ++ '\n' :: lines more := by simp [lines]
theorem lines_append (front back : List (List Char)) : lines (front ++ back) = lines front ++ lines back := by
  simp [lines]

theorem splitlines_lines {texts : List (List Char)} (plain : ∀ text ∈ texts, Unbroken text) {part : List Char}
    (unfinished : Unbroken part) :
    splitlines (lines texts ++ part) = texts ++ if part = [] then [] else [part] := by
  induction texts with
  | nil => simpa using splitlines_unbroken unfinished
  | cons text more ih => grind [lines_cons,splitlines_line]

theorem readText_encode {cs : List Char} (none : '\r' ∉ cs) : readText (encode cs) = some cs := by
  rw [readText,decode_encode,Option.map_some,universalNewlines_of_no_return none]

def cutLines : List UInt8 → List (List UInt8) × List UInt8
  | [] => ([],[])
  | b :: rest =>
    if b = 10 then ([] :: (cutLines rest).1,(cutLines rest).2)
    else
      match (cutLines rest).1 with
      | [] => ([],b :: (cutLines rest).2)
      | line :: more => ((b :: line) :: more,(cutLines rest).2)

theorem cutLines_line {line : List UInt8} (whole : 10 ∉ line) (rest : List UInt8) :
    cutLines (line ++ 10 :: rest) = (line :: (cutLines rest).1,(cutLines rest).2) := by
  induction line <;> grind [cutLines]

theorem cutLines_part {part : List UInt8} (unfinished : 10 ∉ part) : cutLines part = ([],part) := by
  induction part <;> grind only [mem_cons,cutLines]

theorem cutLines_append (front back : List UInt8) :
    cutLines (front ++ back) =
      ((cutLines front).1 ++ (cutLines ((cutLines front).2 ++ back)).1,(cutLines ((cutLines front).2 ++ back)).2) := by
  induction front <;> grind only [cutLines,cons_append]

end Cowork.TextFiles
