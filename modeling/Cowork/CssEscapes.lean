import Mathlib.Tactic.IntervalCases
import Cowork.JsonText

/-!
Serialized CSS on its way into a `style` element (`_escape_css`). One pass takes a
backslash with the character after it, writes what markup must not hold as hexadecimal
escapes and turns each marked delimiter back into `>`.
-/
namespace Cowork.CssEscapes
open JsonText List

/-- `_GREATER_THAN_DELIM`. -/
def greaterThanDelim : Char := '\x00'

/-- The class of `_CSS_HEX_ESCAPED`, which is also the second group of `_CSS_UNSAFE`. -/
def cssHexEscaped (c : Char) : Bool :=
  c = '<' || c = '>' || c.toNat ≤ 8 || c.toNat = 0xb || c.toNat = 0xc || 0xe ≤ c.toNat && c.toNat ≤ 0x1f ||
    c.toNat = 0xfffe || c.toNat = 0xffff

def hexEscape (c : Char) : List Char := '\\' :: (Nat.toDigits 16 c.toNat ++ [' '])

/-- The group of `_CSS_UNSAFE` that matched. -/
inductive Match
  | escaped (c : Char)
  | bare (c : Char)

def escapeCssMatch : Match → List Char
  | .escaped c => if cssHexEscaped c then hexEscape c else ['\\',c]
  | .bare c => if c = greaterThanDelim then ['>'] else hexEscape c

/-- `_CSS_UNSAFE.sub`: any pair is taken before a single character, and a backslash at the end does not match. -/
def escapeCss : List Char → List Char
  | [] => []
  | c :: rest =>
    if c = '\\' then
      match rest with
      | [] => [c]
      | d :: rest => escapeCssMatch (.escaped d) ++ escapeCss rest
    else (if cssHexEscaped c then escapeCssMatch (.bare c) else [c]) ++ escapeCss rest

/-! ## Reading -/

def replacement : Char := '\uFFFD'

/-- The character of a hexadecimal escape. -/
def codePoint (value : Nat) : Char := if value = 0 ∨ ¬value.isValidChar then replacement else .ofNat value

/-- What is read once an escape with some digits is over; its value and their number are known. -/
def ended (r : Option (Nat × Nat)) : List Char := (r.map fun digits => codePoint digits.1).toList

/-- The character after a backslash. Before a newline a backslash escapes nothing. -/
def pair (c : Char) : List Char × Option (Nat × Nat) :=
  match hexValue c with
  | some d => ([],some (d,1))
  | none => (if c = '\n' then ['\\',c] else [if c = '\x00' then replacement else c],none)

/-- A character by itself; NUL is read as `nul`. An escape has at most six digits, and a blank that ends it is part of
    it. -/
def single (nul c : Char) : Option (Nat × Nat) → List Char × Option (Nat × Nat)
  | none => ([if c = '\x00' then nul else c],none)
  | some (value,count) =>
    match (hexValue c).filter fun _ => count < 6 with
    | some d => ([],some (16*value + d,count + 1))
    | none =>
      (if c = ' ' ∨ c = '\t' ∨ c = '\n' then [codePoint value]
        else [codePoint value,if c = '\x00' then nul else c],none)

/-- Reading the escapes of CSS that was preprocessed, as serialized text was: its only newline is `\n`. -/
def read (nul : Char) (r : Option (Nat × Nat)) : List Char → List Char
  | [] => ended r
  | c :: rest =>
    if c = '\\' then
      match rest with
      | [] => ended r ++ [replacement]
      | d :: rest => ended r ++ ((pair d).1 ++ read nul (pair d).2 rest)
    else (single nul c r).1 ++ read nul (single nul c r).2 rest

variable {c nul : Char} {r : Option (Nat × Nat)}

/-- The characters that are rewritten are few. -/
theorem rewritten_cases {P : Char → Prop} (ascii : ∀ n < 0x3f, cssHexEscaped (.ofNat n) = true → P (.ofNat n))
    (fffe : P '\uFFFE') (ffff : P '\uFFFF') : ∀ c, cssHexEscaped c = true → P c := by
  intro c rewritten
  have known := Char.ofNat_toNat c
  have small : c.toNat < 0x3f ∨ c.toNat = 0xfffe ∨ c.toNat = 0xffff := by
    simp [cssHexEscaped,← Char.toNat_inj] at rewritten
    omega
  rcases small with small | is | is
  · rw [← known] at rewritten ⊢
    exact ascii _ small rewritten
  all_goals rwa [← known,is]

theorem rewritten_apart : ∀ c, cssHexEscaped c = true → hexValue c = none ∧ c ∉ [' ','\t','\n','\\'] :=
  rewritten_cases (by decide) (by decide) (by decide)

theorem hexEscape_clean : ∀ c, cssHexEscaped c = true → (hexEscape c).any cssHexEscaped = false :=
  rewritten_cases (by decide) (by decide) (by decide)

theorem read_single (unpaired : c ≠ '\\') (rest : List Char) :
    read nul r (c :: rest) = (single nul c r).1 ++ read nul (single nul c r).2 rest := by
  rw [read.eq_def]
  exact if_neg unpaired

/-- A character that is rewritten ends an escape and is no part of it. -/
theorem read_apart (rewritten : cssHexEscaped c = true) (rest : List Char) :
    read nul r (c :: rest) = ended r ++ (if c = '\x00' then nul else c) :: read nul none rest := by
  obtain ⟨value,blank⟩ := rewritten_apart c rewritten
  rw [read_single (fun is => by simp [is] at blank)]
  cases r <;> simp_all [single,ended]

/-- The blank after the digits ends the escape. -/
theorem read_hexEscape (rest : List Char) : ∀ c, cssHexEscaped c = true →
    read nul r (hexEscape c ++ rest) = ended r ++ (if c = '\x00' then replacement else c) :: read nul none rest := by
  refine rewritten_cases (fun n small _ => ?_) ?_ ?_
  · interval_cases n <;> cases rest <;> rfl
  all_goals cases rest <;> rfl

theorem read_escapeCss (text : List Char) : ∀ r, read replacement r (escapeCss text) = read '>' r text := by
  fun_induction escapeCss text with
  | case1 | case2 => exact fun _ => rfl
  | case3 c rest ih =>
    intro r
    rw [escapeCssMatch]
    split
    · rename_i rewritten
      have facts := rewritten_apart c rewritten
      rw [read_hexEscape _ c rewritten,ih none]
      simp_all [read,pair]
    · simp [read,ih]
  | case4 c rest unpaired ih =>
    intro r
    split
    · rename_i rewritten
      rw [escapeCssMatch,read_apart rewritten,← ih none]
      split
      · rename_i marker
        rw [cons_append,nil_append,read_apart rfl,marker]; rfl
      · rename_i other
        rw [greaterThanDelim] at other
        rw [read_hexEscape _ c rewritten,if_neg other,if_neg other]
    · rename_i safe
      have other : c ≠ '\x00' := fun is => safe (is ▸ rfl)
      have same : single replacement c r = single '>' c r := by
        cases r <;> simp [single,other]
      rw [cons_append,nil_append,read_single unpaired,read_single unpaired,same,ih]

theorem append_split {front back piece rest : List Char} (absent : c ∉ piece) (is : piece ++ rest = front ++ c :: back) :
    ∃ more, front = piece ++ more ∧ rest = more ++ c :: back := by
  rcases append_eq_append_iff.mp is with ⟨more,rfl,rfl⟩ | ⟨more,rfl,tail⟩
  · exact ⟨more,rfl,rfl⟩
  · cases more <;> simp_all

/-- Of the characters that are rewritten only `>` stands in the result, and only where a marker stood. -/
theorem escapeCss_marked (text : List Char) {d : Char} (kept : cssHexEscaped d = true) :
    ∀ front back, escapeCss text = front ++ d :: back → d = '>' ∧
      ∃ before after, text = before ++ greaterThanDelim :: after ∧ front = escapeCss before ∧ back = escapeCss after := by
  have slash : d ≠ '\\' := by
    rintro rfl
    cases kept
  fun_induction escapeCss text with
  | case1 => simp
  | case2 => exact fun front back is => absurd (mem_singleton.mp (is ▸ mem_append_right front mem_cons_self)) slash
  | case3 c rest ih =>
    intro front back is
    have absent : d ∉ escapeCssMatch (.escaped c) := by grind [escapeCssMatch,hexEscape_clean,any_eq_false]
    obtain ⟨more,rfl,left⟩ := append_split absent is
    obtain ⟨greater,before,after,rfl,rfl,rfl⟩ := ih more back left
    exact ⟨greater,'\\' :: c :: before,after,rfl,rfl,rfl⟩
  | case4 c rest unpaired ih =>
    intro front back is
    have here : ∀ before, escapeCss (c :: before) =
        (if cssHexEscaped c then escapeCssMatch (.bare c) else [c]) ++ escapeCss before :=
      fun before => by rw [escapeCss.eq_def]; exact if_neg unpaired
    by_cases marker : c = greaterThanDelim
    · subst marker
      cases front with
      | nil => cases is; exact ⟨rfl,[],rest,rfl,rfl,rfl⟩
      | cons e front =>
        obtain ⟨rfl,left⟩ := cons.inj is
        obtain ⟨greater,before,after,rfl,rfl,rfl⟩ := ih front back left
        exact ⟨greater,greaterThanDelim :: before,after,rfl,(here before).symm,rfl⟩
    · have absent : d ∉ if cssHexEscaped c then escapeCssMatch (.bare c) else [c] := by
        grind [escapeCssMatch,hexEscape_clean,any_eq_false]
      obtain ⟨more,rfl,left⟩ := append_split absent is
      obtain ⟨greater,before,after,rfl,rfl,rfl⟩ := ih more back left
      exact ⟨greater,c :: before,after,rfl,(here before).symm,rfl⟩

/-- Whatever the text, the result has no `<` and none of the other characters, has `>` only where a marker stood, and is
    read as the text is, with `>` for each marker: a character by itself and an escaped one keep their meaning next to
    any other. -/
theorem escapeCss_keeps (text : List Char) :
    '<' ∉ escapeCss text ∧
      (∀ front back, escapeCss text = front ++ '>' :: back →
        ∃ before after, text = before ++ greaterThanDelim :: after ∧ front = escapeCss before ∧ back = escapeCss after) ∧
      (∀ c ∈ escapeCss text, cssHexEscaped c = true → c = '>') ∧
      read replacement none (escapeCss text) = read '>' none text := by
  have only : ∀ c ∈ escapeCss text, cssHexEscaped c = true → c = '>' := by
    intro c member kept
    obtain ⟨front,back,is⟩ := append_of_mem member
    exact (escapeCss_marked text kept front back is).1
  refine ⟨fun member => ?_,fun front back is => (escapeCss_marked text rfl front back is).2,only,
    read_escapeCss text none⟩
  cases only '<' member rfl

example : escapeCss "a\\>b<".toList = "a\\3e b\\3c ".toList := by decide

end Cowork.CssEscapes
