import Mathlib.Algebra.Group.Nat.Defs
import Mathlib.Data.List.TakeWhile

/-! The fixed-width integers of `util.hpp`: a big-endian byte array, read and
written as a number, and its hexadecimal codec. A `std::string` is a `String`
whose characters stand for its bytes. -/
namespace NanoPowServer

/-- The exceptions that the modelled code can raise. `std::out_of_range` does
not derive from `std::runtime_error`. -/
inductive Exception where
  | runtimeError (what : String)
  | outOfRange (what : String)
  deriving DecidableEq

theorem bind_eq_ok {α β : Type} {first : Except Exception α} {rest : α → Except Exception β}
    {result : β} :
    first >>= rest = .ok result ↔ ∃ value, first = .ok value ∧ rest value = .ok result := by
  cases first with
  | error exception => simp [bind, Except.bind]
  | ok value => simp [bind, Except.bind]

/-- A number of exactly `size` bytes, most significant byte first. -/
structure Bigint (size : Nat) where
  bytes : List UInt8
  size_eq : bytes.length = size
  deriving DecidableEq

namespace Bigint

variable {size : Nat}

/-- The base-256 digits of a number, least significant first, no more than
needed. -/
def exportBits : Nat → Nat → List UInt8
  | 0, _ => []
  | fuel + 1, number =>
      if number = 0 then [] else UInt8.ofNat number :: exportBits fuel (number / 256)

theorem exportBits_length_le (fuel number : Nat) : (exportBits fuel number).length ≤ fuel := by
  induction fuel generalizing number with
  | zero => simp [exportBits]
  | succ fuel ih =>
      unfold exportBits
      split
      · simp
      · simpa using ih (number / 256)

/-- The number whose base-256 digits are given, most significant first. -/
def importBits (bytes : List UInt8) : Nat :=
  bytes.foldl (fun number byte => number * 256 + byte.toNat) 0

/-- Fill with zeros, then write the exported digits from the last byte on. -/
def set (number : BitVec (8 * size)) : Bigint size where
  bytes :=
    List.replicate (size - (exportBits size number.toNat).length) 0 ++
      (exportBits size number.toNat).reverse
  size_eq := by
    have := exportBits_length_le size number.toNat
    simp
    omega

def number (x : Bigint size) : BitVec (8 * size) := BitVec.ofNat _ (importBits x.bytes)

theorem importBits_append (front back : List UInt8) :
    importBits (front ++ back) =
      back.foldl (fun number byte => number * 256 + byte.toNat) (importBits front) :=
  List.foldl_append

theorem importBits_replicate_zero (count : Nat) : importBits (List.replicate count 0) = 0 := by
  induction count with
  | zero => rfl
  | succ count ih =>
      rw [List.replicate_succ', importBits_append, ih]
      rfl

theorem importBits_exportBits {fuel number : Nat} (h : number < 256 ^ fuel) :
    importBits (exportBits fuel number).reverse = number := by
  induction fuel generalizing number with
  | zero => simpa [exportBits, importBits, eq_comm] using h
  | succ fuel ih =>
      unfold exportBits
      split
      · simp_all [importBits]
      · have hRest : importBits (exportBits fuel (number / 256)).reverse = number / 256 :=
          ih (by rw [Nat.pow_succ] at h; omega)
        rw [List.reverse_cons, importBits_append, hRest]
        simp [Nat.div_add_mod']

/-- What was set is read back, whatever the number of leading zero bytes. -/
@[simp] theorem number_set (x : BitVec (8 * size)) : (set x).number = x := by
  have hBound : x.toNat < 256 ^ size := by
    have := x.isLt
    rwa [Nat.pow_mul] at this
  have hDigits := importBits_exportBits hBound
  unfold number set
  rw [importBits_append, importBits_replicate_zero]
  change BitVec.ofNat _ (importBits (exportBits size x.toNat).reverse) = x
  rw [hDigits]
  simp

/-- Upper-case hexadecimal digit. -/
def hexDigit (digit : Nat) : Char :=
  if digit < 10 then Char.ofNat ('0'.toNat + digit) else Char.ofNat ('A'.toNat + (digit - 10))

def hexDigits : Nat → Nat → List Char
  | 0, _ => []
  | fuel + 1, number =>
      if number = 0 then [] else hexDigits fuel (number / 16) ++ [hexDigit (number % 16)]

/-- Stream output in hexadecimal, padded with zeros to two characters a byte. -/
def toHex (x : Bigint size) : String :=
  let printed := if x.number = 0 then ['0'] else hexDigits (size * 2) x.number.toNat
  String.ofList (printed.leftpad (size * 2) '0')

/-- `std::isspace` in the classic locale. -/
def isSpace (c : Char) : Bool :=
  c = ' ' || c = '\t' || c = '\n' || c = '\x0b' || c = '\x0c' || c = '\r'

/-- The characters that stream extraction in hexadecimal mode collects. -/
def isPermitted (c : Char) : Bool := "+-xXabcdefABCDEF0123456789".toList.contains c

def isSign (c : Char) : Bool := c = '+' || c = '-'

/-- Skip white space and collect the longest run of permitted characters. The
flag is the stream's `eofbit` afterwards. -/
def readStringWhile (text : List Char) : List Char × Bool :=
  let rest := text.dropWhile isSpace
  (rest.takeWhile isPermitted, (rest.dropWhile isPermitted).isEmpty)

/-- Insert `0x` at `find_first_not_of ("+-")` unless the run starts with it.
`std::string::insert` throws when no such position exists. -/
def insertPrefix (run : List Char) : Except Exception (List Char) :=
  match run with
  | '0' :: 'x' :: _ => .ok run
  | _ =>
      match run.dropWhile isSign with
      | [] => .error (.outOfRange "basic_string::insert")
      | digits => .ok (run.takeWhile isSign ++ '0' :: 'x' :: digits)

def hexValue (c : Char) : Option Nat :=
  if '0' ≤ c ∧ c ≤ '9' then some (c.toNat - '0'.toNat)
  else if 'a' ≤ c ∧ c ≤ 'f' then some (c.toNat - 'a'.toNat + 10)
  else if 'A' ≤ c ∧ c ≤ 'F' then some (c.toNat - 'A'.toNat + 10)
  else none

/-- The base-16 value of a list of digits, which may be empty. -/
def hexNumber (digits : List Char) : Option Nat :=
  digits.foldlM (fun number c => (hexValue c).map (number * 16 + ·)) 0

/-- Assignment of a prefixed string to a multiprecision integer. A leading
minus sign negates modulo the width. -/
def assign (text : List Char) : Except Exception (BitVec (8 * size)) :=
  let malformed := .error (.runtimeError "Unexpected content found while parsing character string.")
  let (negative, magnitude) :=
    match text with
    | '-' :: rest => (true, rest)
    | _ => (false, text)
  match magnitude with
  | '0' :: 'x' :: digits =>
      match hexNumber digits with
      | some value =>
          .ok (if negative then -(BitVec.ofNat _ value) else BitVec.ofNat _ value)
      | none => malformed
  | _ => malformed

/-- Stream extraction in hexadecimal mode. An empty run only sets `failbit`
and leaves the number at its default value. -/
def extractHex (text : List Char) : Except Exception (BitVec (8 * size) × Bool) :=
  let (run, eof) := readStringWhile text
  match run with
  | [] => .ok (0, eof)
  | _ => do
      let prefixed ← insertPrefix run
      let number ← assign prefixed
      .ok (number, eof)

/-- The number after the call and how the call ended. The number is stored
before the end of the input is tested. -/
def fromHex (x : Bigint size) (text : String) : Bigint size × Except Exception Unit :=
  if text ≠ "" ∧ text.length ≤ size * 2 then
    match extractHex text.toList with
    | .error exception => (x, .error exception)
    | .ok (number, eof) =>
        (set number,
          if eof then .ok ()
          else .error (.runtimeError "from_hex failed: invalid input format"))
  else (x, .error (.runtimeError "from_hex failed: invalid input size"))

/-- The number after a call that returns, or the exception it raises. -/
def readHex (x : Bigint size) (text : String) : Except Exception (Bigint size) :=
  match fromHex x text with
  | (y, .ok ()) => .ok y
  | (_, .error exception) => .error exception

/-- The constructor from a string. -/
def ofHex (text : String) : Except Exception (Bigint size) := readHex (set 0) text

/-- The text passes the length test, and what extraction collects from it is
signs without a digit. -/
def SignsOnly (size : Nat) (text : String) : Prop :=
  text ≠ "" ∧ text.length ≤ size * 2 ∧ (readStringWhile text.toList).1 ≠ [] ∧
    ∀ c ∈ (readStringWhile text.toList).1, isSign c = true

instance (text : String) : Decidable (SignsOnly size text) :=
  inferInstanceAs (Decidable (_ ∧ _))

theorem insertPrefix_outOfRange_iff (run : List Char) :
    (∃ what, insertPrefix run = .error (.outOfRange what)) ↔ ∀ c ∈ run, isSign c = true := by
  rw [← List.dropWhile_eq_nil_iff]
  unfold insertPrefix
  split
  · simp [isSign]
  · cases hDigits : run.dropWhile isSign <;> simp

theorem assign_ne_outOfRange (text : List Char) (what : String) :
    (assign text : Except Exception (BitVec (8 * size))) ≠ .error (.outOfRange what) := by
  unfold assign
  dsimp only
  split
  · split <;> simp
  · simp

theorem extractHex_outOfRange_iff (text : List Char) :
    (∃ what, (extractHex text : Except Exception (BitVec (8 * size) × Bool)) =
        .error (.outOfRange what)) ↔
      (readStringWhile text).1 ≠ [] ∧ ∀ c ∈ (readStringWhile text).1, isSign c = true := by
  unfold extractHex
  rcases hRead : readStringWhile text with ⟨run, eof⟩
  cases run with
  | nil => simp
  | cons first rest =>
      rw [← insertPrefix_outOfRange_iff]
      cases hPrefix : insertPrefix (first :: rest) with
      | error exception => simp [bind, Except.bind, hPrefix]
      | ok prefixed =>
          have hAssign := @assign_ne_outOfRange size prefixed
          cases hValue : (assign prefixed : Except Exception (BitVec (8 * size))) with
          | error exception =>
              cases exception <;> simp_all [bind, Except.bind]
          | ok value => simp [bind, Except.bind, hPrefix, hValue]

/-- Reading a hexadecimal field raises something other than a
`std::runtime_error` exactly on such texts. -/
theorem readHex_outOfRange_iff (x : Bigint size) (text : String) :
    (∃ what, readHex x text = .error (.outOfRange what)) ↔ SignsOnly size text := by
  unfold readHex fromHex SignsOnly
  by_cases hSize : text ≠ "" ∧ text.length ≤ size * 2
  · have hExtract := @extractHex_outOfRange_iff size text.toList
    rw [if_pos hSize, ← and_assoc, and_iff_right hSize, ← hExtract]
    cases (extractHex text.toList : Except Exception (BitVec (8 * size) × Bool)) with
    | error exception => simp
    | ok result =>
        rcases result with ⟨value, eof⟩
        cases eof <;> simp_all
  · rw [if_neg hSize, ← and_assoc]
    simp [hSize]

end Bigint

abbrev U128 := Bigint 16
abbrev U256 := Bigint 32
abbrev U512 := Bigint 64

end NanoPowServer
