import IcebergCxx.Failure
import IcebergCxx.Lib.Hex

/-!
# UUIDs

`uuid.cpp`: the fields of a UUID, its text and the parser, which goes over the text with one iterator.
The iterator must not be dereferenced or moved at the end of the text.
-/

namespace IcebergCxx

open Lib

structure Uuid where
  timeLow : BitVec 32
  timeMid : BitVec 16
  timeHiAndVersion : BitVec 16
  clockSeq : BitVec 16
  node : Vector (BitVec 8) 6
  deriving DecidableEq

namespace Uuid

/-- `Uuid()`. -/
def null : Uuid := ⟨0, 0, 0, 0, Vector.replicate 6 0⟩

def separateIndices : List Nat := [8, 13, 18, 23]

def minUuidLength : Nat := 32

def maxUuidLength : Nat := 36

/-! ### Parsing -/

def nibble (hex : Byte) : Int :=
  if 97 ≤ hex.val ∧ hex.val ≤ 102 then hex.val - 97 + 10
  else if 65 ≤ hex.val ∧ hex.val ≤ 70 then hex.val - 65 + 10
  else if 48 ≤ hex.val ∧ hex.val ≤ 57 then hex.val - 48
  else -1

/-- `throw_error`. -/
def throwIncorrect {α : Type} (uuid : Bytes) (description : String) : Except Failure α :=
  .error (.thrown ("Incorrect uuid " ++ text uuid ++ " : " ++ description))

/-- `nibble(*it++)` with the error for a character that is no digit. -/
def nextNibble (uuid : Bytes) (description : String) : Bytes → Except Failure (Nat × Bytes)
  | [] => .error .undefined
  | c :: it => if nibble c < 0 then throwIncorrect uuid description else .ok ((nibble c).toNat, it)

/-- The loop of `setField`, over the digits that are left. -/
def setDigits (uuid : Bytes) (description : String) {w : Nat} :
    Nat → BitVec w → Bytes → Except Failure (BitVec w × Bytes)
  | 0, field, it => .ok (field, it)
  | n + 1, field, it => do
    let (digit, it) ← nextNibble uuid description it
    setDigits uuid description n (field <<< 4 ||| BitVec.ofNat w digit) it

/-- `if (haveHyphens) ++it`. -/
def skipHyphen (haveHyphens : Bool) (it : Bytes) : Except Failure Bytes :=
  if haveHyphens then
    match it with
    | [] => .error .undefined
    | _ :: it => .ok it
  else .ok it

/-- `setField` for a field of `w` bits. -/
def setField (uuid : Bytes) (haveHyphens : Bool) (w : Nat) (description : String) (it : Bytes) :
    Except Failure (BitVec w × Bytes) := do
  let (field, it) ← setDigits uuid ("error while parsing field" ++ description) (w / 4) 0 it
  let it ← skipHyphen haveHyphens it
  return (field, it)

/-- The loop over the bytes of `node_`. -/
def setNode (uuid : Bytes) : Nat → Bytes → Except Failure (List (BitVec 8) × Bytes)
  | 0, it => .ok ([], it)
  | n + 1, it => do
    let (n1, it) ← nextNibble uuid "incorrect mac address" it
    let (n2, it) ← nextNibble uuid "incorrect mac address" it
    let (node, it) ← setNode uuid n it
    return (BitVec.ofNat 8 (n1 <<< 4 ||| n2) :: node, it)

/-- Whether the text has hyphens, decided at the four fixed positions. -/
def hasHyphens (uuid : Bytes) : Except Failure Bool :=
  if separateIndices.all (fun ind => uuid[ind]? = some 45) then
    if maxUuidLength ≤ uuid.length then .ok true else throwIncorrect uuid "incorrect separators positions"
  else .ok false

/-- `new_uuid`. -/
def parseFields (uuid : Bytes) (haveHyphens : Bool) : Except Failure Uuid := do
  let (timeLow, it) ← setField uuid haveHyphens 32 "time_low" uuid
  let (timeMid, it) ← setField uuid haveHyphens 16 "time_mid" it
  let (timeHiAndVersion, it) ← setField uuid haveHyphens 16 "time_hi_and_version" it
  let (clockSeq, it) ← setField uuid haveHyphens 16 "clock_seq" it
  let (node, _) ← setNode uuid 6 it
  return ⟨timeLow, timeMid, timeHiAndVersion, clockSeq, Vector.ofFn (fun i => node.getD i 0)⟩

/-- `Parse`: its outcome and the object after the call. -/
def parse (self : Uuid) (uuid : Bytes) : Except Failure Unit × Uuid :=
  if uuid.length < minUuidLength then
    (throwIncorrect uuid ("length should be greater or equals than " ++ toString minUuidLength), self)
  else
    match hasHyphens uuid >>= parseFields uuid with
    | .error failure => (.error failure, self)
    | .ok newUuid => (.ok (), newUuid)

/-! ### Printing -/

/-- `kDigits`. -/
def kDigits : Bytes := bytes "0123456789abcdef"

def digitAt (i : Nat) : Byte := kDigits.getD i 0

def appendHex8 (str : Bytes) (n : BitVec 8) : Bytes :=
  str ++ [digitAt ((n >>> 4) &&& 0xF).toNat] ++ [digitAt (n &&& 0xF).toNat]

def appendHex16 (str : Bytes) (n : BitVec 16) : Bytes :=
  appendHex8 (appendHex8 str ((n >>> 8).setWidth 8)) ((n &&& 0xFF).setWidth 8)

def appendHex32 (str : Bytes) (n : BitVec 32) : Bytes :=
  appendHex16 (appendHex16 str ((n >>> 16).setWidth 16)) ((n &&& 0xFFFF).setWidth 16)

/-- `ToString`. -/
def toText (uuid : Uuid) : Bytes :=
  let result := appendHex32 [] uuid.timeLow ++ [45]
  let result := appendHex16 result uuid.timeMid ++ [45]
  let result := appendHex16 result uuid.timeHiAndVersion ++ [45]
  let result := appendHex16 result uuid.clockSeq ++ [45]
  uuid.node.toList.foldl appendHex8 result

end Uuid

end IcebergCxx
