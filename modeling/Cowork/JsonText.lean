import Mathlib.Data.List.Basic
import Mathlib.Data.Nat.Digits.Defs

/-!
JSON documents as text: how a value is written and how a text is read back. A writer may
put a blank after commas and colons, and may write only ASCII; every text it writes
reads back as the value (`parse_print`), and a text cut short does not read as another
object (`parse_cut`).
-/
namespace Cowork.JsonText
open List Nat

/-! ## Values -/

def numeric (c : Char) : Bool := c.isDigit || c = '-' || c = '+' || c = '.' || c = 'e' || c = 'E'

/-- `[0-9]+`. -/
def isDigits (cs : List Char) : Bool := !cs.isEmpty && cs.all Char.isDigit

def isExponent : List Char → Bool
  | [] => true
  | c :: rest => (c = 'e' || c = 'E') &&
    match rest with
    | [] => false
    | sign :: more => if sign = '+' || sign = '-' then isDigits more else isDigits rest

def isFraction : List Char → Bool
  | [] => true
  | c :: rest =>
    if c = '.' then isDigits (rest.takeWhile Char.isDigit) && isExponent (rest.dropWhile Char.isDigit)
    else isExponent (c :: rest)

/-- A number without its sign: `0` or digits that do not start with `0`, and what may follow them. -/
def isUnsigned (cs : List Char) : Bool :=
  let whole := cs.takeWhile Char.isDigit
  isDigits whole && (whole.head? != some '0' || whole.length = 1) && isFraction (cs.dropWhile Char.isDigit)

def isNumber : List Char → Bool
  | [] => false
  | c :: rest => if c = '-' then isUnsigned rest else isUnsigned (c :: rest)

structure Number where
  literal : List Char
  plain : literal.all numeric = true
  grammar : isNumber literal = true
deriving DecidableEq

abbrev Text := List Char

instance lawfulText : LawfulBEq Text := inferInstance

mutual
inductive Value where
  | null
  | bool (value : Bool)
  | num (value : Number)
  | str (value : Text)
  | arr (items : Items)
  | obj (fields : Fields)
inductive Items where
  | nil
  | cons (head : Value) (tail : Items)
inductive Fields where
  | nil
  | cons (name : Text) (value : Value) (tail : Fields)
end
deriving instance DecidableEq for Value
deriving instance DecidableEq for Fields
deriving instance DecidableEq for Items

def Fields.get (name : Text) : Fields → Option Value
  | .nil => none
  | .cons field value tail =>
    match tail.get name with
    | some later => some later
    | none => if field = name then some value else none

/-- `fields[name] = value`. -/
def Fields.put (name : Text) (value : Value) : Fields → Fields
  | .nil => .cons name value .nil
  | .cons field old tail => if field = name then .cons field value tail else .cons field old (tail.put name value)

/-! ## Writing -/

/-- A blank after commas and colons or none, and characters outside ASCII escaped or not. -/
structure Style where
  spaced : Bool
  ascii : Bool

def Style.gap (style : Style) : List Char := if style.spaced then [' '] else []

def hexDigit (d : Nat) : Char := (['0','1','2','3','4','5','6','7','8','9','a','b','c','d','e','f'][d]?).getD '0'

def unitDigits (unit : Nat) : List Char :=
  [hexDigit (unit / 4096 % 16),hexDigit (unit / 256 % 16),hexDigit (unit / 16 % 16),hexDigit (unit % 16)]

/-- `\uXXXX`. -/
def unitText (unit : Nat) : List Char := '\\' :: 'u' :: unitDigits unit

def unicodeText (c : Char) : List Char :=
  if c.toNat < 0x10000 then unitText c.toNat
  else unitText (0xD800 + (c.toNat - 0x10000) / 0x400) ++ unitText (0xDC00 + (c.toNat - 0x10000) % 0x400)

def charText (style : Style) (c : Char) : List Char :=
  if c = '"' then ['\\','"']
  else if c = '\\' then ['\\','\\']
  else if c = '\n' then ['\\','n']
  else if c = '\r' then ['\\','r']
  else if c = '\t' then ['\\','t']
  else if c = '\x08' then ['\\','b']
  else if c = '\x0c' then ['\\','f']
  else if c.toNat < 0x20 then unicodeText c
  else if style.ascii && decide (0x7f ≤ c.toNat) then unicodeText c
  else [c]

def closedText (style : Style) (s : List Char) : List Char := s.flatMap (charText style) ++ ['"']

mutual
def print (style : Style) : Value → List Char
  | .null => ['n','u','l','l']
  | .bool true => ['t','r','u','e']
  | .bool false => ['f','a','l','s','e']
  | .num value => value.literal
  | .str value => '"' :: closedText style value
  | .arr .nil => ['[',']']
  | .arr (.cons head tail) => '[' :: (print style head ++ printItems style tail)
  | .obj .nil => ['{','}']
  | .obj (.cons name value tail) =>
    '{' :: '"' :: (closedText style name ++ ':' :: (style.gap ++ (print style value ++ printFields style tail)))
def printItems (style : Style) : Items → List Char
  | .nil => [']']
  | .cons head tail => ',' :: (style.gap ++ (print style head ++ printItems style tail))
def printFields (style : Style) : Fields → List Char
  | .nil => ['}']
  | .cons name value tail =>
    ',' :: (style.gap ++ '"' :: (closedText style name ++
      ':' :: (style.gap ++ (print style value ++ printFields style tail))))
end

/-! ## Reading -/

def blank (c : Char) : Bool := c = ' ' || c = '\t' || c = '\n' || c = '\r'

def skip (cs : List Char) : List Char := cs.dropWhile blank

def hexValue (c : Char) : Option Nat :=
  if c.isDigit then some (c.toNat - 48)
  else if decide ('a' ≤ c) && decide (c ≤ 'f') then some (c.toNat - 87)
  else if decide ('A' ≤ c) && decide (c ≤ 'F') then some (c.toNat - 55)
  else none

def unitValue (a b c d : Char) : Option Nat :=
  match hexValue a,hexValue b,hexValue c,hexValue d with
  | some a,some b,some c,some d => some (a*4096 + b*256 + c*16 + d)
  | _,_,_,_ => none

/-- The character of an escape other than `\u`. -/
def shortEscape (c : Char) : Option Char :=
  if c = '"' then some '"'
  else if c = '\\' then some '\\'
  else if c = '/' then some '/'
  else if c = 'n' then some '\n'
  else if c = 'r' then some '\r'
  else if c = 't' then some '\t'
  else if c = 'b' then some '\x08'
  else if c = 'f' then some '\x0c'
  else none

def readUnit : List Char → Option (Nat × List Char)
  | a :: b :: c :: d :: rest => (unitValue a b c d).map (·,rest)
  | _ => none

def pairChar (high low : Nat) : Char := Char.ofNat (0x10000 + (high - 0xD800)*0x400 + (low - 0xDC00))

def readLow (high : Nat) : List Char → Option (Char × List Char)
  | b :: u :: rest =>
    if b = '\\' ∧ u = 'u' then
      match readUnit rest with
      | none => none
      | some (low,more) =>
        if high < 0xDC00 ∧ 0xDC00 ≤ low ∧ low < 0xE000 then some (pairChar high low,more) else none
    else none
  | _ => none

/-- The character of a `\u` escape. A surrogate outside a pair stands for none and is not read. -/
def readUnicode (cs : List Char) : Option (Char × List Char) :=
  match readUnit cs with
  | none => none
  | some (unit,rest) => if 0xD800 ≤ unit ∧ unit < 0xE000 then readLow unit rest else some (Char.ofNat unit,rest)

def readChar : List Char → Option (Char × List Char)
  | [] => none
  | c :: rest =>
    if c = '\\' then
      match rest with
      | [] => none
      | e :: more => if e = 'u' then readUnicode more else (shortEscape e).map (·,more)
    else if c.toNat < 0x20 then none
    else some (c,rest)

def parseChars : Nat → List Char → Option (List Char × List Char)
  | 0,_ => none
  | n+1,cs =>
    if cs.head? = some '"' then some ([],cs.tail)
    else
      match readChar cs with
      | none => none
      | some (c,rest) => (parseChars n rest).map fun p => (c :: p.1,p.2)

def parseName (n : Nat) : List Char → Option (Text × List Char)
  | [] => none
  | c :: rest =>
    if c = '"' then
      match parseChars n rest with
      | none => none
      | some (name,more) => if (skip more).head? = some ':' then some (name,(skip more).tail) else none
    else none

def parseWord (word : List Char) (value : Value) (cs : List Char) : Option (Value × List Char) :=
  if word.isPrefixOf cs then some (value,cs.drop word.length) else none

def parseNumber (cs : List Char) : Option (Value × List Char) :=
  if valid : (cs.takeWhile numeric).all numeric = true ∧ isNumber (cs.takeWhile numeric) = true then
    some (.num ⟨cs.takeWhile numeric,valid.1,valid.2⟩,cs.dropWhile numeric)
  else none

mutual
def parseValue : Nat → List Char → Option (Value × List Char)
  | 0,_ => none
  | n+1,cs =>
    match skip cs with
    | [] => none
    | c :: rest =>
      if c = '"' then (parseChars n rest).map fun p => (.str p.1,p.2)
      else if c = '[' then
        if (skip rest).head? = some ']' then some (.arr .nil,(skip rest).tail)
        else (parseItems n rest).map fun p => (.arr p.1,p.2)
      else if c = '{' then
        if (skip rest).head? = some '}' then some (.obj .nil,(skip rest).tail)
        else (parseFields n rest).map fun p => (.obj p.1,p.2)
      else if c = 'n' then parseWord ['u','l','l'] .null rest
      else if c = 't' then parseWord ['r','u','e'] (.bool true) rest
      else if c = 'f' then parseWord ['a','l','s','e'] (.bool false) rest
      else parseNumber (c :: rest)
def parseItems : Nat → List Char → Option (Items × List Char)
  | 0,_ => none
  | n+1,cs =>
    match parseValue n cs with
    | none => none
    | some (value,rest) =>
      match skip rest with
      | [] => none
      | c :: more =>
        if c = ']' then some (.cons value .nil,more)
        else if c = ',' then (parseItems n more).map fun p => (.cons value p.1,p.2)
        else none
def parseFields : Nat → List Char → Option (Fields × List Char)
  | 0,_ => none
  | n+1,cs =>
    match parseName n (skip cs) with
    | none => none
    | some (name,text) =>
      match parseValue n text with
      | none => none
      | some (value,rest) =>
        match skip rest with
        | [] => none
        | c :: more =>
          if c = '}' then some (.cons name value .nil,more)
          else if c = ',' then (parseFields n more).map fun p => (.cons name value p.1,p.2)
          else none
end

def parse (cs : List Char) : Option Value :=
  match parseValue (cs.length + 1) cs with
  | none => none
  | some (value,rest) => if skip rest = [] then some value else none

/-! ## What is written reads back -/

theorem hexValue_hexDigit : ∀ d < 16, hexValue (hexDigit d) = some d := by decide

theorem readUnit_unitDigits {unit : Nat} (small : unit < 0x10000) (rest : List Char) :
    readUnit (unitDigits unit ++ rest) = some (unit,rest) := by
  have value : unit / 4096 % 16 * 4096 + unit / 256 % 16 * 256 + unit / 16 % 16 * 16 + unit % 16 = unit := by omega
  simp only [unitDigits,cons_append,nil_append,readUnit,unitValue,
    hexValue_hexDigit _ (mod_lt _ (by decide : 16 > 0)),value,Option.map_some]

theorem toNat_scalar (c : Char) : c.toNat < 0xD800 ∨ 0xDFFF < c.toNat ∧ c.toNat < 0x110000 := c.valid

theorem readChar_pair (c : Char) {high low : Nat} (highSmall : high < 0x400) (lowSmall : low < 0x400)
    (code : 0x10000 + high*0x400 + low = c.toNat) (rest : List Char) :
    readChar (unitText (0xD800 + high) ++ unitText (0xDC00 + low) ++ rest) = some (c,rest) := by
  have first : readUnit (unitDigits (0xD800 + high) ++ (unitText (0xDC00 + low) ++ rest)) =
      some (0xD800 + high,unitText (0xDC00 + low) ++ rest) := readUnit_unitDigits (by omega) _
  have second : readUnit (unitDigits (0xDC00 + low) ++ rest) = some (0xDC00 + low,rest) :=
    readUnit_unitDigits (by omega) _
  have surrogate : 0xD800 ≤ 0xD800 + high ∧ 0xD800 + high < 0xE000 := by omega
  have pair : 0xD800 + high < 0xDC00 ∧ 0xDC00 ≤ 0xDC00 + low ∧ 0xDC00 + low < 0xE000 := by omega
  have value : pairChar (0xD800 + high) (0xDC00 + low) = c := by
    rw [pairChar,Nat.add_sub_cancel_left,Nat.add_sub_cancel_left,code,Char.ofNat_toNat]
  have lower : readLow (0xD800 + high) (unitText (0xDC00 + low) ++ rest) = some (c,rest) := by
    simp only [unitText,cons_append,readLow,and_self,if_true,second,if_pos pair,value]
  have upper : readUnicode (unitDigits (0xD800 + high) ++ (unitText (0xDC00 + low) ++ rest)) = some (c,rest) := by
    simp only [readUnicode,first,if_pos surrogate,lower]
  exact upper

theorem readChar_unicodeText (c : Char) (rest : List Char) : readChar (unicodeText c ++ rest) = some (c,rest) := by
  have scalar := toNat_scalar c
  unfold unicodeText
  by_cases small : c.toNat < 0x10000
  · rw [if_pos small]
    have single : ¬ (0xD800 ≤ c.toNat ∧ c.toNat < 0xE000) := by omega
    simp [unitText,readChar,readUnicode,readUnit_unitDigits small,single]
  · rw [if_neg small]; exact readChar_pair c (by omega) (by omega) (by omega) rest

section
variable (style : Style)
include style

theorem charText_cases (c : Char) :
    (∃ d, charText style c = ['\\',d] ∧ shortEscape d = some c ∧ d ≠ 'u' ∧ 0x20 ≤ d.toNat) ∨
      charText style c = unicodeText c ∨
      charText style c = [c] ∧ c ≠ '"' ∧ c ≠ '\\' ∧ 0x20 ≤ c.toNat := by
  unfold charText
  by_cases quote : c = '"'
  · exact .inl ⟨'"',if_pos quote,by rw [quote]; rfl,by decide,by decide⟩
  by_cases slash : c = '\\'
  all_goals grind only [shortEscape]

theorem readChar_charText (c : Char) (rest : List Char) :
    readChar (charText style c ++ rest) = some (c,rest) := by
  rcases charText_cases style c with ⟨d,text,escape,short,-⟩ | text | ⟨text,-,slash,printable⟩
  · simp [text,readChar,escape,short]
  · rw [text]; exact readChar_unicodeText c rest
  · simp [text,readChar,slash,printable]

theorem charText_head (c : Char) (rest : List Char) : (charText style c ++ rest).head? ≠ some '"' := by
  grind [charText_cases,unicodeText,unitText]

theorem charText_length (c : Char) : 1 ≤ (charText style c).length := by grind [charText_cases,unicodeText,unitText]

theorem closedText_length (s : List Char) : s.length < (closedText style s).length := by
  induction s <;> grind only [closedText,charText_length,flatMap_cons,length_append,length_cons]

theorem parseChars_closedText (s : List Char) {n : Nat} (fuel : s.length < n) (rest : List Char) :
    parseChars n (closedText style s ++ rest) = some (s,rest) := by
  induction s generalizing n with
  | nil =>
    obtain ⟨m,rfl⟩ := Nat.exists_eq_add_of_lt fuel
    simp [closedText,parseChars]
  | cons c more ih =>
    obtain ⟨m,rfl⟩ : ∃ m, n = m+1 := ⟨n-1,by simp at fuel; omega⟩
    have text : closedText style (c :: more) ++ rest = charText style c ++ (closedText style more ++ rest) := by
      simp [closedText]
    rw [text,parseChars,if_neg (charText_head _ _ _),readChar_charText]
    simp only [ih (by simp at fuel; omega),Option.map_some]

end

@[simp] theorem skip_nil : skip [] = [] := rfl

theorem skip_part {c : Char} (part : blank c = false) (rest : List Char) : skip (c :: rest) = c :: rest := by
  simp [skip,part]

theorem skip_gap (style : Style) (cs : List Char) : skip (style.gap ++ cs) = skip cs := by
  unfold Style.gap
  split
  · simp [skip,blank]
  · rfl

def NoNumber (cs : List Char) : Prop := ∀ c ∈ cs.head?, numeric c = false

theorem print_starts (style : Style) (value : Value) :
    ∃ c rest, print style value = c :: rest ∧ blank c = false ∧ c ≠ ']' := by
  match value with
  | .null => exact ⟨_,_,rfl,rfl,by decide⟩
  | .bool true => exact ⟨_,_,rfl,rfl,by decide⟩
  | .bool false => exact ⟨_,_,rfl,rfl,by decide⟩
  | .str _ => exact ⟨_,_,rfl,rfl,by decide⟩
  | .arr .nil => exact ⟨_,_,rfl,rfl,by decide⟩
  | .arr (.cons _ _) => exact ⟨_,_,rfl,rfl,by decide⟩
  | .obj .nil => exact ⟨_,_,rfl,rfl,by decide⟩
  | .obj (.cons _ _ _) => exact ⟨_,_,rfl,rfl,by decide⟩
  | .num ⟨[],_,grammar⟩ => simp [isNumber] at grammar
  | .num ⟨c :: rest,plain,_⟩ =>
    refine ⟨c,rest,rfl,?_⟩
    have numeral : numeric c = true := (all_eq_true.mp plain) c (by simp)
    constructor
    · by_contra blanks
      simp only [blank,Bool.not_eq_false,Bool.or_eq_true,decide_eq_true_eq] at blanks
      rcases blanks with ((rfl | rfl) | rfl) | rfl <;> simp [numeric] at numeral
    · rintro rfl; exact absurd numeral (by decide)

theorem print_length (style : Style) (value : Value) : 0 < (print style value).length := by
  obtain ⟨c,rest,text,_⟩ := print_starts style value
  simp [text]

theorem numeric_other {c : Char} (numeral : numeric c = true) :
    c ≠ '"' ∧ c ≠ '[' ∧ c ≠ '{' ∧ c ≠ 'n' ∧ c ≠ 't' ∧ c ≠ 'f' := by
  refine ⟨?_,?_,?_,?_,?_,?_⟩ <;> (rintro rfl; exact absurd numeral (by decide))

theorem parseNumber_literal (number : Number) {rest : List Char} (after : NoNumber rest) :
    parseNumber (number.literal ++ rest) = some (.num number,rest) := by
  have all : ∀ c ∈ number.literal, numeric c = true := all_eq_true.mp number.plain
  have stops : rest.takeWhile numeric = [] ∧ rest.dropWhile numeric = rest := by
    cases rest with
    | nil => exact ⟨rfl,rfl⟩
    | cons c more => simp [after c rfl]
  have taken : (number.literal ++ rest).takeWhile numeric = number.literal := by
    rw [takeWhile_append_of_pos all,stops.1,append_nil]
  have left : (number.literal ++ rest).dropWhile numeric = rest := by
    rw [dropWhile_append_of_pos all,stops.2]
  have valid : number.literal.all numeric = true ∧ isNumber number.literal = true := ⟨number.plain,number.grammar⟩
  simp only [parseNumber,taken,left,dif_pos valid]

section
variable (style : Style)
include style

theorem parseValue_gap (n : Nat) (cs : List Char) : parseValue n (style.gap ++ cs) = parseValue n cs := by
  cases n with
  | zero => simp only [parseValue]
  | succ n => rw [parseValue,parseValue,skip_gap]

theorem parseItems_gap (n : Nat) (cs : List Char) : parseItems n (style.gap ++ cs) = parseItems n cs := by
  cases n with
  | zero => simp only [parseItems]
  | succ n => rw [parseItems,parseItems,parseValue_gap]

theorem parseFields_gap (n : Nat) (cs : List Char) :
    parseFields n (style.gap ++ cs) = parseFields n cs := by
  cases n with
  | zero => simp only [parseFields]
  | succ n => rw [parseFields,parseFields,skip_gap]

theorem parseName_closedText (name : Text) {n : Nat} (fuel : (closedText style name).length ≤ n)
    (rest : List Char) :
    parseName n ('"' :: (closedText style name ++ ':' :: rest)) = some (name,rest) := by
  have chars := closedText_length style name
  have read : parseChars n (closedText style name ++ ':' :: rest) = some (name,':' :: rest) :=
    parseChars_closedText style name (by omega) (':' :: rest)
  have colon : skip (':' :: rest) = ':' :: rest := skip_part rfl rest
  simp only [parseName,if_true,read,colon,head?_cons,tail_cons]

theorem printItems_noNumber (items : Items) (rest : List Char) :
    NoNumber (printItems style items ++ rest) := by
  intro c first
  cases items <;>
    (simp only [printItems,cons_append,head?_cons,Option.mem_def,Option.some.injEq] at first
     subst first
     decide)

theorem printFields_noNumber (fields : Fields) (rest : List Char) :
    NoNumber (printFields style fields ++ rest) := by
  intro c first
  cases fields <;>
    (simp only [printFields,cons_append,head?_cons,Option.mem_def,Option.some.injEq] at first
     subst first
     decide)

end

mutual
theorem parseValue_print (style : Style) : ∀ (value : Value) (n : Nat) (rest : List Char),
    (print style value).length ≤ n → NoNumber rest → parseValue n (print style value ++ rest) = some (value,rest)
  | value,0,rest,fuel,_ => by
    have := print_length style value
    omega
  | .null,n+1,rest,_,_ => by simp [print,parseValue,skip,blank,parseWord]
  | .bool true,n+1,rest,_,_ => by simp [print,parseValue,skip,blank,parseWord]
  | .bool false,n+1,rest,_,_ => by simp [print,parseValue,skip,blank,parseWord]
  | .num number,n+1,rest,_,after => by
    obtain ⟨c,more,text,part,_⟩ := print_starts style (.num number)
    have literal : number.literal = c :: more := text
    have numeral : numeric c = true := (all_eq_true.mp number.plain) c (by simp [literal])
    obtain ⟨notQuote,notBracket,notBrace,notN,notT,notF⟩ := numeric_other numeral
    have read := parseNumber_literal number after
    rw [literal,cons_append] at read
    rw [text,cons_append,parseValue,skip_part part]
    simp only [notQuote,notBracket,notBrace,notN,notT,notF,if_false,read]
  | .str s,n+1,rest,fuel,_ => by
    have chars := closedText_length style s
    simp only [print,length_cons] at fuel
    have read : parseChars n (closedText style s ++ rest) = some (s,rest) :=
      parseChars_closedText style s (by omega) rest
    rw [print,cons_append,parseValue,skip_part rfl]
    simp only [if_true,read,Option.map_some]
  | .arr .nil,n+1,rest,_,_ => by simp [print,parseValue,skip,blank]
  | .arr (.cons head tail),n+1,rest,fuel,_ => by
    simp only [print,length_cons] at fuel
    obtain ⟨c,more,text,part,open_⟩ := print_starts style head
    have notClosed : (skip (print style head ++ printItems style tail ++ rest)).head? ≠ some ']' := by
      simp [text,skip,part,open_]
    rw [print,cons_append,parseValue,skip_part rfl]
    simp only [if_neg notClosed,parseItems_print style head tail n rest (by simpa using fuel)]
    simp
  | .obj .nil,n+1,rest,_,_ => by simp [print,parseValue,skip,blank]
  | .obj (.cons name value tail),n+1,rest,fuel,_ => by
    simp only [print] at fuel
    have read := parseFields_print style name value tail n rest (by simpa using fuel)
    rw [print,cons_append,parseValue,skip_part rfl]
    rw [cons_append] at read ⊢
    have notClosed : (skip ('"' :: ((closedText style name ++
        ':' :: (style.gap ++ (print style value ++ printFields style tail))) ++ rest))).head? ≠ some '}' := by
      simp [skip,blank]
    simp only [if_neg notClosed,read]
    simp

theorem parseItems_print (style : Style) : ∀ (head : Value) (tail : Items) (n : Nat) (rest : List Char),
    (print style head ++ printItems style tail).length ≤ n →
      parseItems n (print style head ++ printItems style tail ++ rest) = some (.cons head tail,rest)
  | head,tail,0,rest,fuel => by
    have := print_length style head
    simp only [length_append] at fuel
    omega
  | head,.nil,n+1,rest,fuel => by
    simp only [printItems,length_append,length_cons,length_nil] at fuel
    have read := parseValue_print style head n (']' :: rest) (by omega) (by intro c first; cases first; rfl)
    simp only [printItems,append_assoc,cons_append,nil_append,parseItems,read,
      skip_part (show blank ']' = false from rfl),if_true]
  | head,.cons next more,n+1,rest,fuel => by
    simp only [printItems,length_append,length_cons] at fuel
    have read := parseValue_print style head n (printItems style (.cons next more) ++ rest) (by omega)
      (printItems_noNumber style _ rest)
    have others := parseItems_print style next more n rest (by simp only [length_append]; omega)
    rw [append_assoc,parseItems,read]
    simp only [printItems,cons_append,append_assoc,skip_part (show blank ',' = false from rfl),parseItems_gap]
    rw [append_assoc] at others
    simp [others]

theorem parseFields_print (style : Style) : ∀ (name : Text) (value : Value) (tail : Fields) (n : Nat) (rest : List Char),
    ('"' :: (closedText style name ++
      ':' :: (style.gap ++ (print style value ++ printFields style tail)))).length ≤ n →
      parseFields n ('"' :: (closedText style name ++
        ':' :: (style.gap ++ (print style value ++ printFields style tail))) ++ rest) = some (.cons name value tail,rest)
  | name,value,tail,0,rest,fuel => by simp at fuel
  | name,value,.nil,n+1,rest,fuel => by
    simp only [printFields,length_append,length_cons,length_nil] at fuel
    have named := parseName_closedText style name (n := n) (by omega) (style.gap ++ (print style value ++ '}' :: rest))
    have read := parseValue_print style value n ('}' :: rest) (by omega) (by intro c first; cases first; rfl)
    simp only [printFields,append_assoc,cons_append,nil_append,parseFields,
      skip_part (show blank '"' = false from rfl),named,parseValue_gap,read,skip_part (show blank '}' = false from rfl),
      if_true]
  | name,value,.cons next later more,n+1,rest,fuel => by
    simp only [printFields,length_append,length_cons] at fuel
    have named := parseName_closedText style name (n := n) (by omega)
      (style.gap ++ (print style value ++ (printFields style (.cons next later more) ++ rest)))
    have read := parseValue_print style value n (printFields style (.cons next later more) ++ rest) (by omega)
      (printFields_noNumber style _ rest)
    have others := parseFields_print style next later more n rest (by
      simp only [length_append,length_cons]
      omega)
    simp only [append_assoc,cons_append,parseFields,skip_part (show blank '"' = false from rfl),named,
      parseValue_gap,read]
    simp only [append_assoc,cons_append] at others
    simp [printFields,skip_part (show blank ',' = false from rfl),parseFields_gap,others]
end

theorem parse_print (style : Style) (value : Value) : parse (print style value) = some value := by
  have read := parseValue_print style value ((print style value).length + 1) [] (by omega) (by intro c first; cases first)
  rw [append_nil] at read
  simp only [parse,read,skip_nil,if_true]

def Inline (cs : List Char) : Prop := ∀ c ∈ cs, 0x20 ≤ c.toNat

theorem inline_append {front back : List Char} : Inline (front ++ back) ↔ Inline front ∧ Inline back := by
  grind only [Inline,mem_append]

theorem inline_cons {c : Char} {cs : List Char} : Inline (c :: cs) ↔ 0x20 ≤ c.toNat ∧ Inline cs := by simp [Inline]

theorem hexDigit_inline : ∀ d < 16, 0x20 ≤ (hexDigit d).toNat := by decide

theorem unitText_inline (unit : Nat) : Inline (unitText unit) := by
  intro c inside
  simp only [unitText,unitDigits,mem_cons,not_mem_nil,or_false] at inside
  rcases inside with rfl | rfl | rfl | rfl | rfl | rfl
  · decide
  · decide
  all_goals exact hexDigit_inline _ (mod_lt _ (by decide))

theorem charText_inline (style : Style) (c : Char) : Inline (charText style c) := by
  grind [Inline,unicodeText,unitText_inline,charText_cases,inline_cons]

theorem closedText_inline (style : Style) (s : List Char) : Inline (closedText style s) := by
  refine inline_append.mpr ⟨?_,by intro c inside; rw [mem_singleton.mp inside]; decide⟩
  intro c inside
  obtain ⟨d,-,found⟩ := mem_flatMap.mp inside
  exact charText_inline style d c found

theorem gap_inline (style : Style) : Inline style.gap := by
  unfold Style.gap
  split
  · intro c inside
    rw [mem_singleton.mp inside]
    decide
  · intro c inside; cases inside

theorem numeric_inline {c : Char} (numeral : numeric c = true) : 0x20 ≤ c.toNat := by
  simp only [numeric,Char.isDigit,Bool.or_eq_true,Bool.and_eq_true,decide_eq_true_eq] at numeral
  rcases numeral with ((((⟨low,-⟩ | rfl) | rfl) | rfl) | rfl) | rfl
  · have : '0'.toNat ≤ c.toNat := low
    exact le_trans (by decide) this
  all_goals decide

mutual
theorem print_inline (style : Style) : ∀ value, Inline (print style value)
  | .null => by simp [print,Inline]
  | .bool true => by simp [print,Inline]
  | .bool false => by simp [print,Inline]
  | .num number => fun c inside => numeric_inline ((all_eq_true.mp number.plain) c inside)
  | .str s => inline_cons.mpr ⟨by decide,closedText_inline style s⟩
  | .arr .nil => by simp [print,Inline]
  | .arr (.cons head tail) =>
    inline_cons.mpr ⟨by decide,inline_append.mpr ⟨print_inline style head,printItems_inline style tail⟩⟩
  | .obj .nil => by simp [print,Inline]
  | .obj (.cons name value tail) => by
    simp only [print,inline_cons,inline_append]
    exact ⟨by decide,by decide,closedText_inline style _,by decide,gap_inline style,print_inline style value,
      printFields_inline style tail⟩
theorem printItems_inline (style : Style) : ∀ items, Inline (printItems style items)
  | .nil => by simp [printItems,Inline]
  | .cons head tail => by
    simp only [printItems,inline_cons,inline_append]
    exact ⟨by decide,gap_inline style,print_inline style head,printItems_inline style tail⟩
theorem printFields_inline (style : Style) : ∀ fields, Inline (printFields style fields)
  | .nil => by simp [printFields,Inline]
  | .cons name value tail => by
    simp only [printFields,inline_cons,inline_append]
    exact ⟨by decide,gap_inline style,by decide,closedText_inline style _,by decide,gap_inline style,
      print_inline style value,printFields_inline style tail⟩
end

/-! ## Whole numbers -/

def intText (i : Int) : List Char := if i < 0 then '-' :: Nat.toDigits 10 i.natAbs else Nat.toDigits 10 i.natAbs

theorem toDigits_lead {n : Nat} (positive : 0 < n) : (Nat.toDigits 10 n).head? ≠ some '0' := by
  induction n using Nat.strong_induction_on with
  | _ n ih =>
    by_cases small : n < 10
    · rw [toDigits_of_lt_base small]
      have : ∀ d < 10, 0 < d → [digitChar d].head? ≠ some '0' := by decide
      exact this n small positive
    · rw [toDigits_of_base_le (by decide) (by omega),head?_append_of_ne_nil _ toDigits_ne_nil]
      exact ih (n / 10) (by omega) (by omega)

theorem toDigits_isDigits (n : Nat) : isDigits (Nat.toDigits 10 n) = true := by
  simp only [isDigits,Bool.and_eq_true,all_eq_true]
  exact ⟨by simp [toDigits_ne_nil],fun c inside => isDigit_of_mem_toDigits (by decide) (by decide) inside⟩

theorem toDigits_unsigned (n : Nat) : isUnsigned (Nat.toDigits 10 n) = true := by
  have all : ∀ c ∈ toDigits 10 n, c.isDigit = true :=
    fun c inside => isDigit_of_mem_toDigits (by decide) (by decide) inside
  have taken : (toDigits 10 n).takeWhile Char.isDigit = toDigits 10 n := by
    simpa using @takeWhile_append_of_pos _ Char.isDigit _ [] all
  have left : (toDigits 10 n).dropWhile Char.isDigit = [] := by
    simpa using @dropWhile_append_of_pos _ Char.isDigit _ [] all
  have lead : ((toDigits 10 n).head? != some '0' || decide ((toDigits 10 n).length = 1)) = true := by
    cases n with
    | zero => decide
    | succ n => simp [toDigits_lead]
  simp only [isUnsigned,taken,left,toDigits_isDigits,lead,isFraction,Bool.and_true]

theorem toDigits_unsigned_head {n : Nat} {c : Char} {rest : List Char} (text : Nat.toDigits 10 n = c :: rest) :
    c ≠ '-' := by
  rintro rfl
  have inside : '-' ∈ toDigits 10 n := by
    rw [text]; simp
  have digit := isDigit_of_mem_toDigits (by decide) (by decide) inside
  exact absurd digit (by decide)

def Number.ofInt (i : Int) : Number where
  literal := intText i
  plain := by
    have digits : (Nat.toDigits 10 i.natAbs).all numeric = true := by
      rw [all_eq_true]
      intro c inside
      simp [numeric,Nat.isDigit_of_mem_toDigits (by decide) (by decide) inside]
    unfold intText
    split
    · simp only [all_cons,digits,Bool.and_true]
      decide
    · exact digits
  grammar := by
    have digits := toDigits_unsigned i.natAbs
    unfold intText
    split
    · simpa only [isNumber,if_true] using digits
    · cases text : Nat.toDigits 10 i.natAbs with
      | nil => exact absurd text Nat.toDigits_ne_nil
      | cons c rest =>
        have unsigned : c ≠ '-' := toDigits_unsigned_head text
        rw [text] at digits
        simp only [isNumber,if_neg unsigned,digits]

def intOfText : List Char → Option Int
  | [] => none
  | c :: rest =>
    if c = '-' then if isDigits rest then some (-(Nat.ofDigitChars 10 rest 0 : Int)) else none
    else if isDigits (c :: rest) then some (Nat.ofDigitChars 10 (c :: rest) 0 : Int) else none

@[simp] theorem intOfText_intText (i : Int) : intOfText (intText i) = some i := by
  have digits := toDigits_isDigits i.natAbs
  have value : Nat.ofDigitChars 10 (Nat.toDigits 10 i.natAbs) 0 = i.natAbs :=
    Nat.ofDigitChars_toDigits (by decide) (by decide)
  by_cases negative : i < 0
  · grind only [intText,intOfText]
  · have text : intText i = Nat.toDigits 10 i.natAbs := by simp [intText,negative]
    cases shape : Nat.toDigits 10 i.natAbs <;> grind only [Nat.toDigits_ne_nil,toDigits_unsigned_head,intOfText]

def Number.toInt? (number : Number) : Option Int := intOfText number.literal

@[simp] theorem toInt?_ofInt (i : Int) : (Number.ofInt i).toInt? = some i := intOfText_intText i

/-! ## Reading fields -/

section
variable {α : Type}

def readField (fields : Fields) (name : Text) (otherwise : Option α) (read : Value → Option α) : Option α :=
  match fields.get name with
  | none => otherwise
  | some value => read value

end

def readInt : Value → Option Int
  | .num number => number.toInt?
  | _ => none
def readText : Value → Option Text
  | .str text => some text
  | _ => none
def readObject : Value → Option Fields
  | .obj fields => some fields
  | _ => none

@[simp] theorem readInt_ofInt (i : Int) : readInt (.num (.ofInt i)) = some i := toInt?_ofInt i

/-! ## A text cut short

What a reader has read does not depend on the text after it, except that a
number at the end of the text might have gone on.
-/

variable {cs rest : List Char} {c : Char} {n m : Nat} {value : Value} {out : Value × List Char}

theorem skip_append (first : skip cs = c :: rest) (more : List Char) : skip (cs ++ more) = c :: (rest ++ more) := by
  unfold skip at *
  rw [dropWhile_append,first]
  rfl

theorem readUnit_append {unit : Nat} (read : readUnit cs = some (unit,rest)) (more : List Char) :
    readUnit (cs ++ more) = some (unit,rest ++ more) := by
  match cs with
  | [] | [_] | [_,_] | [_,_,_] => simp [readUnit] at read
  | a :: b :: c :: d :: tail =>
    simp only [readUnit,Option.map_eq_some_iff] at read
    obtain ⟨value,found,rfl,rfl⟩ := read
    simp [readUnit,found]

theorem readLow_append {high : Nat} (read : readLow high cs = some (c,rest)) (more : List Char) :
    readLow high (cs ++ more) = some (c,rest ++ more) := by
  match cs with
  | [] | [_] => simp [readLow] at read
  | b :: u :: tail =>
    simp only [readLow] at read
    split_ifs at read with escape
    cases unit : readUnit tail with
    | none => simp [unit] at read
    | some found =>
      simp only [unit] at read
      split_ifs at read with pair
      simp only [Option.some.injEq,Prod.mk.injEq] at read
      obtain ⟨rfl,rfl⟩ := read
      simp only [cons_append,readLow,if_pos escape,readUnit_append unit,if_pos pair]

theorem readUnicode_append (read : readUnicode cs = some (c,rest)) (more : List Char) :
    readUnicode (cs ++ more) = some (c,rest ++ more) := by
  unfold readUnicode at *
  cases unit : readUnit cs with
  | none => simp [unit] at read
  | some found =>
    simp only [unit,readUnit_append unit] at read ⊢
    split_ifs at read ⊢ with surrogate
    · exact readLow_append read more
    · cases read; rfl

theorem readChar_append (read : readChar cs = some (c,rest)) (more : List Char) :
    readChar (cs ++ more) = some (c,rest ++ more) := by
  match cs with
  | [] => simp [readChar] at read
  | first :: tail =>
    simp only [readChar] at read ⊢
    grind only [cons_append,readUnicode_append,Option.map_eq_some_iff]

theorem parseChars_append (fuel : n ≤ m) {s : List Char} (read : parseChars n cs = some (s,rest)) (more : List Char) :
    parseChars m (cs ++ more) = some (s,rest ++ more) := by
  induction n generalizing m cs s with
  | zero => simp [parseChars] at read
  | succ n ih =>
    obtain ⟨m,rfl⟩ : ∃ k, m = k+1 := ⟨m-1,by omega⟩
    simp only [parseChars] at read
    split_ifs at read with closed
    · grind [parseChars]
    · cases first : readChar cs with
      | none => simp [first] at read
      | some found =>
        obtain ⟨c,left⟩ := found
        simp only [first,Option.map_eq_some_iff] at read
        obtain ⟨⟨tail,after⟩,found,rfl,rfl⟩ := read
        have stillOpen : ¬ (cs ++ more).head? = some '"' := by
          cases cs with
          | nil => simp [readChar] at first
          | cons c tail => simpa using closed
        simp only [parseChars,if_neg stillOpen,readChar_append first,ih (le_of_succ_le_succ fuel) found,Option.map_some]

theorem parseName_append (fuel : n ≤ m) {name : Text} (read : parseName n cs = some (name,rest)) (more : List Char) :
    parseName m (cs ++ more) = some (name,rest ++ more) := by
  cases cs with
  | nil => simp [parseName] at read
  | cons c tail =>
    simp only [parseName,cons_append] at read ⊢
    split_ifs at read ⊢ with quote
    cases chars : parseChars n tail with
    | none => simp [chars] at read
    | some found =>
      obtain ⟨text,left⟩ := found
      simp only [chars,parseChars_append fuel chars] at read ⊢
      split_ifs at read with colon
      cases read
      have there : skip left = ':' :: (skip left).tail := (cons_head?_tail colon).symm
      simp only [skip_append there,head?_cons,tail_cons,if_true]

theorem parseWord_append {word : List Char} (read : parseWord word value cs = some out) (more : List Char) :
    parseWord word value (cs ++ more) = some (out.1,out.2 ++ more) := by grind [parseWord]

theorem parseNumber_append (read : parseNumber cs = some (value,rest)) (goesOn : rest ≠ []) (more : List Char) :
    parseNumber (cs ++ more) = some (value,rest ++ more) := by
  unfold parseNumber at read
  split_ifs at read with valid
  cases read
  have taken : (cs ++ more).takeWhile numeric = cs.takeWhile numeric := by
    rw [takeWhile_append,if_neg]
    intro all
    have whole := congrArg length (takeWhile_append_dropWhile (p := numeric) (l := cs))
    rw [length_append] at whole
    exact goesOn (length_eq_zero_iff.mp (by omega))
  have left : (cs ++ more).dropWhile numeric = cs.dropWhile numeric ++ more := by
    rw [dropWhile_append]; simp [goesOn]
  simp only [parseNumber,taken,left,dif_pos valid]

def Ended (value : Value) (rest : List Char) : Prop := rest ≠ [] ∨ ∀ number, value ≠ .num number

theorem ended_of_part {more : List Char} (part : skip rest = c :: more) : Ended value rest := by
  left
  rintro rfl
  simp at part

theorem parseValue_part (read : parseValue n cs = some out) : skip cs ≠ [] := by
  intro empty
  cases n <;> simp [parseValue,empty] at read

theorem parseItems_part {out : Items × List Char} (read : parseItems n cs = some out) : skip cs ≠ [] := by
  cases n <;> grind only [parseItems,parseValue_part]

theorem parseFields_part {out : Fields × List Char} (read : parseFields n cs = some out) : skip cs ≠ [] := by
  intro empty
  cases n <;> simp [parseFields,parseName,empty] at read

theorem skip_head_append (part : skip cs ≠ []) (more : List Char) : (skip (cs ++ more)).head? = (skip cs).head? := by
  obtain ⟨c,rest,first⟩ := exists_cons_of_ne_nil part
  rw [skip_append first,first]
  rfl

/-- What `n` units of fuel read is read again in a longer text, with as much fuel or more. -/
structure Again (n : Nat) : Prop where
  values : ∀ m cs value rest more, n ≤ m → parseValue n cs = some (value,rest) → Ended value rest →
    parseValue m (cs ++ more) = some (value,rest ++ more)
  items : ∀ m cs items rest more, n ≤ m → parseItems n cs = some (items,rest) →
    parseItems m (cs ++ more) = some (items,rest ++ more)
  fields : ∀ m cs fields rest more, n ≤ m → parseFields n cs = some (fields,rest) →
    parseFields m (cs ++ more) = some (fields,rest ++ more)

theorem Again.value_succ (again : Again n) (more : List Char) (fuel : n ≤ m)
    (read : parseValue (n+1) cs = some (value,rest)) (ended : Ended value rest) :
    parseValue (m+1) (cs ++ more) = some (value,rest ++ more) := by
  rw [parseValue] at read ⊢
  cases first : skip cs with
  | nil => simp [first] at read
  | cons c tail =>
    simp only [first,skip_append first] at read ⊢
    -- one case for each way a value may start
    split_ifs at read with quote bracket noItems brace noFields n t f
    · rw [if_pos quote]
      simp only [Option.map_eq_some_iff,Prod.mk.injEq] at read ⊢
      obtain ⟨⟨s,left⟩,found,rfl,rfl⟩ := read
      exact ⟨_,parseChars_append fuel found more,rfl,rfl⟩
    · cases read
      have there : skip tail = ']' :: (skip tail).tail := (cons_head?_tail noItems).symm
      simp only [if_neg quote,if_pos bracket,skip_append there more,head?_cons,tail_cons,if_true]
    · grind only [Option.map_eq_some_iff,skip_head_append,parseItems_part,cases Again]
    · cases read
      have there : skip tail = '}' :: (skip tail).tail := (cons_head?_tail noFields).symm
      simp only [if_neg quote,if_neg bracket,if_pos brace,skip_append there more,head?_cons,tail_cons,if_true]
    · simp only [Option.map_eq_some_iff] at read
      obtain ⟨⟨fields,left⟩,found,rfl,rfl⟩ := read
      rw [if_neg quote,if_neg bracket,if_pos brace,skip_head_append (parseFields_part found),if_neg noFields,
        again.fields m _ _ _ more fuel found]
      rfl
    · rw [if_neg quote,if_neg bracket,if_neg brace,if_pos n]
      exact parseWord_append read more
    · rw [if_neg quote,if_neg bracket,if_neg brace,if_neg n,if_pos t]
      exact parseWord_append read more
    · rw [if_neg quote,if_neg bracket,if_neg brace,if_neg n,if_neg t,if_pos f]
      exact parseWord_append read more
    · rw [if_neg quote,if_neg bracket,if_neg brace,if_neg n,if_neg t,if_neg f]
      refine parseNumber_append read ?_ more
      rcases ended with goesOn | other
      · exact goesOn
      · unfold parseNumber at read
        split_ifs at read
        cases read; exact absurd rfl (other _)

theorem Again.items_succ (again : Again n) {items : Items} (more : List Char) (fuel : n ≤ m)
    (read : parseItems (n+1) cs = some (items,rest)) : parseItems (m+1) (cs ++ more) = some (items,rest ++ more) := by
  rw [parseItems] at read ⊢
  cases first : parseValue n cs with
  | none => simp [first] at read
  | some found =>
    obtain ⟨value,left⟩ := found
    simp only [first] at read
    cases part : skip left with
    | nil => simp [part] at read
    | cons c tail =>
      rw [again.values m _ _ _ more fuel first (ended_of_part part)]
      simp only [part,skip_append part] at read ⊢
      split_ifs at read ⊢ with last comma
      · cases read; rfl
      · simp only [Option.map_eq_some_iff] at read
        obtain ⟨⟨others,after⟩,found,rfl,rfl⟩ := read
        rw [again.items m _ _ _ more fuel found]; rfl

theorem Again.fields_succ (again : Again n) {fields : Fields} (more : List Char) (fuel : n ≤ m)
    (read : parseFields (n+1) cs = some (fields,rest)) : parseFields (m+1) (cs ++ more) = some (fields,rest ++ more) := by
  rw [parseFields] at read ⊢
  cases start : skip cs with
  | nil => simp [start,parseName] at read
  | cons c tail =>
    rw [skip_append start more,← cons_append,← start]
    cases named : parseName n (skip cs) with
    | none => simp [named] at read
    | some found =>
      obtain ⟨name,text⟩ := found
      rw [parseName_append fuel named]
      cases first : parseValue n text with
      | none => simp [named,first] at read
      | some found =>
        obtain ⟨value,left⟩ := found
        simp only [named,first] at read
        cases part : skip left with
        | nil => simp [part] at read
        | cons c tail =>
          simp only [again.values m _ _ _ more fuel first (ended_of_part part)]
          simp only [skip_append part] at read ⊢
          grind only [Option.map_eq_some_iff,cases Again]

theorem again (n : Nat) : Again n := by
  induction n with
  | zero => constructor <;> simp [parseValue,parseItems,parseFields]
  | succ n ih =>
    constructor
    · intro m cs value rest more fuel read ended
      obtain ⟨m,rfl⟩ : ∃ k, m = k+1 := ⟨m-1,by omega⟩
      exact ih.value_succ more (by omega) read ended
    · intro m cs items rest more fuel read
      obtain ⟨m,rfl⟩ : ∃ k, m = k+1 := ⟨m-1,by omega⟩
      exact ih.items_succ more (by omega) read
    · intro m cs fields rest more fuel read
      obtain ⟨m,rfl⟩ : ∃ k, m = k+1 := ⟨m-1,by omega⟩
      exact ih.fields_succ more (by omega) read

theorem parseValue_brace (read : parseValue n ('{' :: rest) = some out) : ∀ number, out.1 ≠ .num number := by
  intro number
  cases n with
  | zero => simp [parseValue] at read
  | succ n =>
    have brace : parseValue (n+1) ('{' :: rest) = if (skip rest).head? = some '}' then some (.obj .nil,(skip rest).tail)
        else (parseFields n rest).map fun p => (.obj p.1,p.2) := by
      rw [parseValue,skip_part (show blank '{' = false from rfl)]
      simp
    rw [brace] at read
    split_ifs at read
    · cases read
      simp
    · simp only [Option.map_eq_some_iff] at read
      obtain ⟨found,-,rfl⟩ := read
      simp

theorem print_obj (style : Style) (fields : Fields) : ∃ rest, print style (.obj fields) = '{' :: rest := by
  cases fields <;> exact ⟨_,rfl⟩

theorem parse_cut (style : Style) (fields : Fields) {front back : List Char}
    (text : print style (.obj fields) = front ++ back) (cut : back ≠ []) : parse front = none := by
  by_contra accepted
  obtain ⟨value,read⟩ := Option.ne_none_iff_exists'.mp accepted
  unfold parse at read
  cases first : parseValue (front.length + 1) front with
  | none => simp [first] at read
  | some found =>
    cases front with
    | nil => simp [parseValue] at first
    | cons c tail =>
      obtain ⟨others,start⟩ := print_obj style fields
      have brace : c = '{' := by
        rw [start] at text
        exact (cons.inj text).1.symm
      subst brace
      have fuel : ('{' :: tail).length + 1 ≤ (print style (.obj fields)).length + 1 := by
        rw [text,length_append]; omega
      have longer := (again _).values _ _ _ _ back fuel first (.inr (parseValue_brace first))
      have whole := parseValue_print style (.obj fields) ((print style (.obj fields)).length + 1) [] (by omega)
        (by intro c first; cases first)
      rw [append_nil] at whole
      rw [← text,whole] at longer
      simp only [Option.some.injEq,Prod.mk.injEq,nil_eq,append_eq_nil_iff] at longer
      exact cut longer.2.2

end Cowork.JsonText
