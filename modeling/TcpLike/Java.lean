import Mathlib.Data.Int.ModEq
import Mathlib.Tactic

/-!
# What the two programs use of Java

The numeric types, the text conversions and the arrays of the standard library that `sender` and
`receiver` are written with. An `int` is an integer wrapped to 32 bits where it can overflow; a
`long` here only counts bytes and segments, or holds an `int`, and is not wrapped. A string is its
list of characters.
-/

namespace TcpLike

/-- The exceptions the two programs run into. Memory is taken to be unbounded: there is no
`OutOfMemoryError`. -/
inductive JavaException
  | socketTimeout
  | numberFormat
  | arrayIndexOutOfBounds
  | illegalArgument
  | nullPointer
  deriving DecidableEq, Repr

/-- A computation that may throw. -/
abbrev Java (α : Type) := Except JavaException α

@[simp] theorem java_pure {α : Type} (a : α) : (pure a : Java α) = .ok a := rfl

@[simp] theorem java_ok_bind {α β : Type} (a : α) (f : α → Java β) : (Except.ok a >>= f) = f a :=
  rfl

@[simp] theorem java_error_bind {α β : Type} (e : JavaException) (f : α → Java β) :
    ((Except.error e : Java α) >>= f) = .error e := rfl

theorem java_bind_eq_ok {α β : Type} {x : Java α} {f : α → Java β} {b : β} :
    (x >>= f) = .ok b ↔ ∃ a, x = .ok a ∧ f a = .ok b := by
  cases x with
  | ok a => simp
  | error e => simp

/-- A byte array. -/
abbrev Bytes := List UInt8

/-- The value of an `int` expression: `x` wrapped to 32 bits. -/
def int32 (x : ℤ) : ℤ := Int.bmod x (2 ^ 32)

theorem int32_eq (x : ℤ) :
    int32 x = if x % 2 ^ 32 < 2 ^ 31 then x % 2 ^ 32 else x % 2 ^ 32 - 2 ^ 32 := by
  unfold int32
  rw [Int.bmod_def]
  rfl

theorem int32_of_lt {x : ℤ} (h0 : -2 ^ 31 ≤ x) (h : x < 2 ^ 31) : int32 x = x := by
  rw [int32_eq]
  split_ifs <;> omega

theorem int32_emod (x : ℤ) : int32 x % 2 ^ 32 = x % 2 ^ 32 := by
  rw [int32_eq]
  split_ifs <;> omega

theorem int32_modEq (x : ℤ) : int32 x ≡ x [ZMOD 2 ^ 32] := int32_emod x

theorem int32_congr {x y : ℤ} (h : x ≡ y [ZMOD 2 ^ 32]) : int32 x = int32 y := by
  rw [int32_eq, int32_eq, h]

/-- A sum is wrapped only once. -/
theorem int32_add (x y : ℤ) : int32 (int32 x + y) = int32 (x + y) :=
  int32_congr ((int32_modEq x).add_right y)

/-- `(byte)((x >> s) & 255)`. -/
def octet (x : ℤ) (s : ℕ) : UInt8 := UInt8.ofNat ((x >>> s) % 256).toNat

/-- `a[i]`, read. -/
def getByte (a : Bytes) (i : ℕ) : Java UInt8 :=
  match a[i]? with
  | some b => .ok b
  | none => .error .arrayIndexOutOfBounds

/-- `Arrays.copyOfRange`: past the end of the array the copy is padded with zeros. An end before the
start, a sum that has wrapped among them, is documented to throw `IllegalArgumentException`. -/
def copyOfRange (a : Bytes) (start stop : ℤ) : Java Bytes :=
  if stop < start then .error .illegalArgument
  else if start < 0 ∨ (a.length : ℤ) < start then .error .arrayIndexOutOfBounds
  else .ok ((a.drop start.toNat).takeD (stop - start).toNat 0)

/-! ## Text -/

/-- `Integer.toBinaryString`, of an `int`. -/
def toBinaryString (i : ℤ) : List Char := Nat.toDigits 2 (i % 2 ^ 32).toNat

/-- `Byte.toString`. -/
def byteToString (b : UInt8) : List Char :=
  if b.toNat < 128 then Nat.toDigits 10 b.toNat else '-' :: Nat.toDigits 10 (256 - b.toNat)

/-- `Character.digit`. -/
def digit (radix : ℕ) (c : Char) : Option ℕ :=
  let v :=
    if '0' ≤ c ∧ c ≤ '9' then c.toNat - '0'.toNat
    else if 'a' ≤ c ∧ c ≤ 'z' then c.toNat - 'a'.toNat + 10
    else if 'A' ≤ c ∧ c ≤ 'Z' then c.toNat - 'A'.toNat + 10
    else radix
  if v < radix then some v else none

/-- The digits of `s` read on from `n`. -/
def parseDigits (radix : ℕ) : ℕ → List Char → Option ℕ
  | n, [] => some n
  | n, c :: s =>
    match digit radix c with
    | some d => parseDigits radix (n * radix + d) s
    | none => none

/-- The value of a text of digits behind an optional sign. -/
def signedDigits (radix : ℕ) : List Char → Option ℤ
  | [] | ['-'] | ['+'] => none
  | '-' :: s => (parseDigits radix 0 s).map fun n : ℕ => -(n : ℤ)
  | '+' :: s => (parseDigits radix 0 s).map fun n : ℕ => (n : ℤ)
  | s => (parseDigits radix 0 s).map fun n : ℕ => (n : ℤ)

/-- `Integer.parseInt`: a text that is no number, or one that is no `int`, throws. -/
def parseInt (s : List Char) (radix : ℕ) : Java ℤ :=
  match signedDigits radix s with
  | some v => if -2 ^ 31 ≤ v ∧ v < 2 ^ 31 then .ok v else .error .numberFormat
  | none => .error .numberFormat

/-- The `double` nearest a natural number, ties to even. -/
def roundToDouble (n : ℕ) : ℕ :=
  if n < 2 ^ 53 then n
  else
    let e := n.log2 - 52
    let q := n / 2 ^ e
    let r := n % 2 ^ e
    (if 2 ^ e < 2 * r ∨ (2 * r = 2 ^ e ∧ q % 2 = 1) then q + 1 else q) * 2 ^ e

/-- `Double.parseDouble`, of a text of decimal digits: every such `double` is a natural number. -/
def parseDouble (s : List Char) : ℕ := roundToDouble ((parseDigits 10 0 s).getD 0)

/-- `d` with its last `k` decimal digits rounded off. -/
def roundedOff (d k : ℕ) : ℕ := (d + 10 ^ k / 2) / 10 ^ k * 10 ^ k

/-- The decimal a `double` is printed as: the shortest that reads back as `d`. -/
def shortestDecimal (d : ℕ) : ℕ :=
  (((List.range (Nat.toDigits 10 d).length).reverse.map (roundedOff d)).find?
    fun m => roundToDouble m = d).getD d

/-- `new DecimalFormat("0…0").format(d)`, for a pattern of `width` zeros. -/
def decimalFormat (width d : ℕ) : List Char :=
  (Nat.toDigits 10 (shortestDecimal d)).leftpad width '0'

end TcpLike
