import Cowork.JsonText
import Cowork.TextFiles

/-!
The records of a turn's stream, and the line of JSON that a file buffer keeps for
each: a line reads back as its record (`parseRecord_line`).
-/
namespace Cowork.StreamRecords
open JsonText TextFiles

inductive TerminalReason where
  | completed | cancelled | error | interrupted | restart
deriving DecidableEq

def TerminalReason.text : TerminalReason → Text
  | .completed => "completed".toList
  | .cancelled => "cancelled".toList
  | .error => "error".toList
  | .interrupted => "interrupted".toList
  | .restart => "restart".toList

def TerminalReason.type : TerminalReason → Text
  | .completed => "Done".toList
  | .cancelled => "Cancelled".toList
  | .error => "Error".toList
  | .interrupted => "Interrupted".toList
  | .restart => "Interrupted".toList

def terminalTypes : List Text := ["Done".toList,"Cancelled".toList,"Error".toList,"Interrupted".toList]

def isTerminalType (type : Text) : Bool := type ∈ terminalTypes

structure TurnRecord where
  seq : Int
  ts : Text
  type : Text
  data : Fields
deriving DecidableEq

def TurnRecord.isTerminal (record : TurnRecord) : Bool := isTerminalType record.type

theorem reason_terminal (reason : TerminalReason) : isTerminalType reason.type = true := by
  cases reason <;> decide

/-- `{"reason": reason, **(extra or {})}`. -/
def closeData (reason : TerminalReason) (extra : Fields) : Fields := merged (.cons "reason".toList (.str reason.text) .nil) extra
where
  /-- `{**fields, **more}`. -/
  merged (fields : Fields) : Fields → Fields
    | .nil => fields
    | .cons name value tail => merged (fields.put name value) tail

/-- How `json.dumps(record, ensure_ascii=False)` writes. -/
def lineStyle : Style := ⟨true,false⟩

def toFields (record : TurnRecord) : Fields :=
  .cons "seq".toList (.num (.ofInt record.seq)) <|
  .cons "ts".toList (.str record.ts) <|
  .cons "type".toList (.str record.type) <|
  .cons "data".toList (.obj record.data) .nil

def line (record : TurnRecord) : List Char := print lineStyle (.obj (toFields record))

/-- The bytes that `bytes.strip` takes off. -/
def blankByte (b : UInt8) : Bool := b ∈ [9,10,11,12,13,32]

/-- `line.strip()`. -/
def strip (bytes : List UInt8) : List UInt8 := ((bytes.dropWhile blankByte).reverse.dropWhile blankByte).reverse

/-- `obj.get("data") or {}`. -/
def readData : Value → Option Fields
  | .obj fields => some fields
  | .null => some .nil
  | _ => none

/-- `_parse_record(line)`. What only the source reads as a record (a number for the type, say) is never written. -/
def parseRecord (bytes : List UInt8) : Option TurnRecord :=
  if strip bytes = [] then none
  else
    match (decode (strip bytes)).bind parse with
    | some (.obj fields) => do
      let seq ← readField fields "seq".toList (some (-1)) readInt
      let ts ← readField fields "ts".toList (some []) JsonText.readText
      let type ← readField fields "type".toList (some []) JsonText.readText
      let data ← readField fields "data".toList (some .nil) readData
      return { seq, ts, type, data }
    | _ => none

theorem printFields_ends (style : Style) (fields : Fields) : ∃ front, printFields style fields = front ++ ['}'] := by
  cases fields with
  | nil => exact ⟨[],rfl⟩
  | cons name value tail =>
    obtain ⟨front,text⟩ := printFields_ends style tail
    refine ⟨',' :: (style.gap ++ '"' :: (closedText style name ++ ':' :: (style.gap ++ (print style value ++ front)))),?_⟩
    simp only [printFields,text,List.cons_append,List.append_assoc]

theorem line_shape (record : TurnRecord) : ∃ middle, line record = '{' :: (middle ++ ['}']) := by
  obtain ⟨front,text⟩ := printFields_ends lineStyle
    (.cons "ts".toList (.str record.ts) <| .cons "type".toList (.str record.type) <| .cons "data".toList (.obj record.data) .nil)
  refine ⟨'"' :: (closedText lineStyle "seq".toList ++ ':' :: (lineStyle.gap ++
    (print lineStyle (.num (.ofInt record.seq)) ++ front))),?_⟩
  simp only [line,toFields,print,text,List.cons_append,List.append_assoc]

theorem strip_line (record : TurnRecord) : strip (encode (line record)) = encode (line record) := by
  obtain ⟨middle,shape⟩ := line_shape record
  have bytes : encode (line record) = 123 :: (encode middle ++ [125]) := by
    rw [shape,encode_cons,encode_append,encode_cons]; rfl
  rw [bytes,strip]
  simp [blankByte]

theorem line_no_newline (record : TurnRecord) : 10 ∉ encode (line record) := by
  rw [newline_mem_encode]
  intro inside
  exact absurd (print_inline lineStyle (.obj (toFields record)) _ inside) (by decide)

theorem parseRecord_line (record : TurnRecord) : parseRecord (encode (line record)) = some record := by
  have some : encode (line record) ≠ [] := by
    intro empty
    have none := encode_injective (empty.trans encode_nil.symm)
    cases none
  simp only [parseRecord,strip_line,if_neg some,decode_encode,Option.bind_some]
  rw [line,parse_print]
  simp [toFields,readField,Fields.get,JsonText.readText,readData]

end Cowork.StreamRecords
