-- Bytes and their texts: hexadecimal, Base64, whole numbers with the least
-- byte first, and IPv4 addresses.
import DevconSpark.PyNumber

open py_text py_number

namespace binary

abbrev Bytes := List (Fin 256)

/-- A digit of an alphabet of ASCII. -/
theorem getD_ascii {t : Text} {d : Char} (h : ∀ c ∈ d :: t, c.toNat < 128) (n : Nat) :
    (t.getD n d).toNat < 128 := by
  rw [List.getD_eq_getElem?_getD]
  rcases hn : t[n]? with _ | c
  · exact h d List.mem_cons_self
  · exact h c (List.mem_cons_of_mem d (List.mem_of_getElem? hn))

/-! ## Hexadecimal -/

def hexDigits : Text := "0123456789abcdef".toList

def hexDigit (n : Nat) : Char := hexDigits.getD n '0'

def hexValue? (c : Char) : Option Nat :=
  if '0' ≤ c ∧ c ≤ '9' then some (c.toNat - 48)
  else if 'a' ≤ c ∧ c ≤ 'f' then some (c.toNat - 87)
  else if 'A' ≤ c ∧ c ≤ 'F' then some (c.toNat - 55)
  else none

def byteOf (n : Nat) : Fin 256 := ⟨n % 256, Nat.mod_lt _ (by decide)⟩

def hexlify (bs : Bytes) : Text := bs.flatMap fun b => [hexDigit (b / 16), hexDigit (b % 16)]

/-- `none` is `binascii.Error`. -/
def unhexlify : Text → Option Bytes
  | [] => some []
  | [_] => none
  | c :: d :: t => do
    let m ← hexValue? c
    let n ← hexValue? d
    let bs ← unhexlify t
    return byteOf (16 * m + n) :: bs

theorem hexValue?_hexDigit : ∀ n < 16, hexValue? (hexDigit n) = some n := by decide

theorem byteOf_eq {n : Nat} {b : Fin 256} (h : n % 256 = b) : byteOf n = b := Fin.ext h

theorem byteOf_val {n : Nat} {b : Fin 256} (h : n = b) : byteOf n = b := by
  subst h
  exact byteOf_eq (Nat.mod_eq_of_lt b.isLt)

/-- The text of bytes is read back. -/
theorem unhexlify_hexlify (bs : Bytes) : unhexlify (hexlify bs) = some bs := by
  induction bs with
  | nil => rfl
  | cons b bs ih =>
    have hb := b.isLt
    have htext : hexlify (b :: bs) = hexDigit (b / 16) :: hexDigit (b % 16) :: hexlify bs := rfl
    rw [htext, unhexlify, hexValue?_hexDigit _ (by omega), hexValue?_hexDigit _ (by omega), ih]
    simp only [Option.bind_eq_bind, Option.bind_some]
    rw [byteOf_val (Nat.div_add_mod b.val 16)]
    rfl

theorem hexlify_ascii (bs : Bytes) : ∀ c ∈ hexlify bs, c.toNat < 128 := by
  intro c hc
  obtain ⟨b, -, hb⟩ := List.mem_flatMap.mp hc
  simp only [List.mem_cons, List.not_mem_nil, or_false] at hb
  rcases hb with rfl | rfl <;> exact getD_ascii (by decide) _

/-! ## Base64 -/

def b64Digits : Text :=
  "ABCDEFGHIJKLMNOPQRSTUVWXYZabcdefghijklmnopqrstuvwxyz0123456789+/".toList

def b64Digit (n : Nat) : Char := b64Digits.getD n 'A'

def b64Value? (c : Char) : Option Nat :=
  if 'A' ≤ c ∧ c ≤ 'Z' then some (c.toNat - 65)
  else if 'a' ≤ c ∧ c ≤ 'z' then some (c.toNat - 71)
  else if '0' ≤ c ∧ c ≤ '9' then some (c.toNat + 4)
  else if c = '+' then some 62
  else if c = '/' then some 63
  else none

def b64encode : Bytes → Text
  | [] => []
  | [a] => [b64Digit (a / 4), b64Digit (a % 4 * 16), '=', '=']
  | [a, b] => [b64Digit (a / 4), b64Digit (a % 4 * 16 + b / 16), b64Digit (b % 16 * 4), '=']
  | a :: b :: c :: bs =>
    b64Digit (a / 4) :: b64Digit (a % 4 * 16 + b / 16) :: b64Digit (b % 16 * 4 + c / 64) ::
      b64Digit (c % 64) :: b64encode bs

/-- Where the reader is in a group of four digits, what is left of the last digit, and how many
pads there were. What is no digit is skipped. `none` is `binascii.Error`. -/
def b64read (pos left pads : Nat) : Text → Option Bytes
  | [] => if pos = 0 then some [] else none
  | c :: t =>
    if c = '=' then
      if 2 ≤ pos ∧ 4 ≤ pos + (pads + 1) then some []
      else b64read pos left (if 2 ≤ pos then pads + 1 else pads) t
    else match b64Value? c with
      | none => b64read pos left pads t
      | some v =>
        match pos with
        | 0 => b64read 1 v 0 t
        | 1 => (b64read 2 (v % 16) 0 t).map (byteOf (left * 4 + v / 16) :: ·)
        | 2 => (b64read 3 (v % 4) 0 t).map (byteOf (left * 16 + v / 4) :: ·)
        | _ => (b64read 0 0 0 t).map (byteOf (left * 64 + v) :: ·)

def b64decode (t : Text) : Option Bytes := b64read 0 0 0 t

theorem b64Value?_b64Digit : ∀ n < 64, b64Digit n ≠ '=' ∧ b64Value? (b64Digit n) = some n := by
  decide +kernel

theorem b64read_digit {n : Nat} (h : n < 64) (pos left pads : Nat) (t : Text) :
    b64read pos left pads (b64Digit n :: t) = match pos with
      | 0 => b64read 1 n 0 t
      | 1 => (b64read 2 (n % 16) 0 t).map (byteOf (left * 4 + n / 16) :: ·)
      | 2 => (b64read 3 (n % 4) 0 t).map (byteOf (left * 16 + n / 4) :: ·)
      | _ => (b64read 0 0 0 t).map (byteOf (left * 64 + n) :: ·) := by
  obtain ⟨hne, hvalue⟩ := b64Value?_b64Digit n h
  rw [b64read, if_neg hne, hvalue]

/-- The text of bytes is read back. -/
theorem b64decode_b64encode (bs : Bytes) : b64decode (b64encode bs) = some bs := by
  unfold b64decode
  induction bs using b64encode.induct with
  | case1 => rfl
  | case2 a =>
    have ha := a.isLt
    simp only [b64encode, b64read_digit (show a.val / 4 < 64 by omega),
      b64read_digit (show a.val % 4 * 16 < 64 by omega)]
    rw [byteOf_val (show a.val / 4 * 4 + a.val % 4 * 16 / 16 = a by omega)]
    rfl
  | case3 a b =>
    have ha := a.isLt
    have hb := b.isLt
    simp only [b64encode, b64read_digit (show a.val / 4 < 64 by omega),
      b64read_digit (show a.val % 4 * 16 + b.val / 16 < 64 by omega),
      b64read_digit (show b.val % 16 * 4 < 64 by omega)]
    rw [byteOf_val (show a.val / 4 * 4 + (a.val % 4 * 16 + b.val / 16) / 16 = a by omega),
      byteOf_val (show (a.val % 4 * 16 + b.val / 16) % 16 * 16 + b.val % 16 * 4 / 4 = b by omega)]
    rfl
  | case4 a b c bs ih =>
    have ha := a.isLt
    have hb := b.isLt
    have hc := c.isLt
    simp only [b64encode, b64read_digit (show a.val / 4 < 64 by omega),
      b64read_digit (show a.val % 4 * 16 + b.val / 16 < 64 by omega),
      b64read_digit (show b.val % 16 * 4 + c.val / 64 < 64 by omega),
      b64read_digit (show c.val % 64 < 64 by omega), ih]
    rw [byteOf_val (show a.val / 4 * 4 + (a.val % 4 * 16 + b.val / 16) / 16 = a by omega),
      byteOf_val (show (a.val % 4 * 16 + b.val / 16) % 16 * 16 +
        (b.val % 16 * 4 + c.val / 64) / 4 = b by omega),
      byteOf_val (show (b.val % 16 * 4 + c.val / 64) % 4 * 64 + c.val % 64 = c by omega)]
    rfl

theorem b64Digit_mem (n : Nat) : b64Digit n ∈ b64Digits := by
  unfold b64Digit
  rw [List.getD_eq_getElem?_getD]
  cases h : b64Digits[n]? with
  | none => decide
  | some c => exact List.mem_of_getElem? h

/-- The text is made of the digits and the pad. -/
theorem b64encode_mem (bs : Bytes) : ∀ c ∈ b64encode bs, c ∈ '=' :: b64Digits := by
  have hdigit : ∀ n, b64Digit n ∈ '=' :: b64Digits :=
    fun n => List.mem_cons_of_mem _ (b64Digit_mem n)
  have hpad : '=' ∈ '=' :: b64Digits := List.mem_cons_self
  induction bs using b64encode.induct with
  | case1 => simp [b64encode]
  | case2 a => simp only [b64encode, List.forall_mem_cons, hdigit, hpad, List.not_mem_nil,
      IsEmpty.forall_iff, implies_true, and_self]
  | case3 a b => simp only [b64encode, List.forall_mem_cons, hdigit, hpad, List.not_mem_nil,
      IsEmpty.forall_iff, implies_true, and_self]
  | case4 a b c bs ih => simpa only [b64encode, List.forall_mem_cons, hdigit, true_and] using ih

theorem b64encode_ascii (bs : Bytes) : ∀ c ∈ b64encode bs, c.toNat < 128 := by
  have hall : ∀ c ∈ '=' :: b64Digits, c.toNat < 128 := by decide +kernel
  exact fun c hc => hall c (b64encode_mem bs c hc)

/-! ## Whole numbers -/

/-- `n.to_bytes(length, 'little')`. `none` is `OverflowError`. -/
def toBytes : (length n : Nat) → Option Bytes
  | 0, n => if n = 0 then some [] else none
  | length + 1, n => (toBytes length (n / 256)).map (byteOf n :: ·)

/-- `int.from_bytes(bs, 'little')` -/
def fromBytes : Bytes → Nat
  | [] => 0
  | b :: bs => b + 256 * fromBytes bs

theorem fromBytes_toBytes {length n : Nat} (h : n < 256 ^ length) :
    ∃ bs, toBytes length n = some bs ∧ bs.length = length ∧ fromBytes bs = n := by
  induction length generalizing n with
  | zero =>
    have hn : n = 0 := by simpa using h
    exact ⟨[], by simp [toBytes, hn], rfl, hn.symm⟩
  | succ length ih =>
    obtain ⟨bs, hbs, hlength, hn⟩ :=
      ih (Nat.div_lt_of_lt_mul (by rwa [← Nat.pow_succ']) : n / 256 < _)
    refine ⟨byteOf n :: bs, by rw [toBytes, hbs]; rfl, by simp [hlength], ?_⟩
    rw [fromBytes, hn]
    exact Nat.mod_add_div n 256

theorem toBytes_fromBytes (bs : Bytes) : toBytes bs.length (fromBytes bs) = some bs := by
  induction bs with
  | nil => rfl
  | cons b bs ih =>
    have hb := b.isLt
    rw [List.length_cons, fromBytes, toBytes,
      show (b.val + 256 * fromBytes bs) / 256 = fromBytes bs by omega, ih, Option.map_some,
      byteOf_eq (show (b.val + 256 * fromBytes bs) % 256 = b by omega)]

theorem fromBytes_lt (bs : Bytes) : fromBytes bs < 256 ^ bs.length := by
  induction bs with
  | nil => decide
  | cons b bs ih =>
    have hb := b.isLt
    rw [fromBytes, List.length_cons, Nat.pow_succ]
    omega

/-! ## IPv4 addresses -/

/-- `htonl(n)` and `ntohl(n)`, where the least byte of a number comes first. `none` is
`OverflowError`. -/
def swapBytes (n : Nat) : Option Nat := (toBytes 4 n).map fun bs => fromBytes bs.reverse

/-- The address of a number: its bytes, the largest first. -/
def ipv4Text (n : Nat) : Text :=
  natText (n / 16777216) ++ '.' :: natText (n / 65536 % 256) ++ '.' :: natText (n / 256 % 256) ++
    '.' :: natText (n % 256)

/-- One byte of an address: a number up to 255 in decimal, without zeros before it. -/
def octet? (t : Text) : Option Nat :=
  if t ≠ [] ∧ t.all Char.isDigit ∧ t.length ≤ 3 ∧ (t = ['0'] ∨ t.head? ≠ some '0') then
    let n := Nat.ofDigitChars 10 t 0
    if n ≤ 255 then some n else none
  else none

def ipv4Value? (t : Text) : Option Nat :=
  match t.splitOn '.' with
  | [a, b, c, d] => do
    let a ← octet? a
    let b ← octet? b
    let c ← octet? c
    let d ← octet? d
    return ((a * 256 + b) * 256 + c) * 256 + d
  | _ => none

theorem octet?_natText : ∀ n < 256, octet? (natText n) = some n := by decide +kernel

theorem ipv4Value?_ipv4Text {n : Nat} (h : n < 256 ^ 4) : ipv4Value? (ipv4Text n) = some n := by
  have hsplit : (ipv4Text n).splitOn '.' =
      [natText (n / 16777216), natText (n / 65536 % 256), natText (n / 256 % 256),
        natText (n % 256)] := by
    have hdot : ∀ m, '.' ∉ natText m := fun m hm => by
      have hno : Char.isDigit '.' = false := by decide
      simp [natText_digits m '.' hm] at hno
    rw [show ipv4Text n = ['.'].intercalate [natText (n / 16777216), natText (n / 65536 % 256),
      natText (n / 256 % 256), natText (n % 256)] by
        simp [ipv4Text, List.intercalate, List.intersperse]]
    apply List.splitOn_intercalate
    · intro l hl
      simp only [List.mem_cons, List.not_mem_nil, or_false] at hl
      rcases hl with rfl | rfl | rfl | rfl <;> exact hdot _
    · simp
  unfold ipv4Value?
  rw [hsplit]
  simp only [octet?_natText _ (show n / 16777216 < 256 by omega),
    octet?_natText _ (show n / 65536 % 256 < 256 by omega),
    octet?_natText _ (show n / 256 % 256 < 256 by omega),
    octet?_natText _ (show n % 256 < 256 by omega), Option.bind_eq_bind, Option.bind_some]
  congr 1
  omega

/-- Swapping the bytes twice changes nothing. -/
theorem swapBytes_swapBytes {n : Nat} (h : n < 256 ^ 4) :
    ∃ m, swapBytes n = some m ∧ m < 256 ^ 4 ∧ swapBytes m = some n := by
  obtain ⟨bs, hbs, hlength, hn⟩ := fromBytes_toBytes h
  have hrev : bs.reverse.length = 4 := by rw [List.length_reverse, hlength]
  refine ⟨fromBytes bs.reverse, by rw [swapBytes, hbs]; rfl, ?_, ?_⟩
  · rw [← hrev]
    exact fromBytes_lt _
  · have hback := toBytes_fromBytes bs.reverse
    rw [hrev] at hback
    rw [swapBytes, hback, Option.map_some, List.reverse_reverse, hn]

end binary
