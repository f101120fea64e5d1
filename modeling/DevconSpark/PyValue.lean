-- The values that the service moves around: what `json` can hold. A dict is a
-- list of keys and values, in the order of insertion.
import DevconSpark.PyDict
import DevconSpark.PyNumber
import DevconSpark.Exceptions
import Mathlib.Data.List.Infix

open py_text py_dict py_number devcon_spark.exceptions

namespace py_value

inductive Value
  | none
  | bool (b : Bool)
  | int (i : Int)
  | float (x : PyFloat)
  | str (t : Text)
  | list (vs : List Value)
  | dict (kvs : List (Text × Value))

abbrev Dict := List (Text × Value)

/-- What holds of a list where it holds of its elements, and of a dict where it holds of its
values, holds of every value. -/
theorem value_induction {P : Value → Prop} (none : P .none) (bool : ∀ b, P (.bool b))
    (int : ∀ i, P (.int i)) (float : ∀ x, P (.float x)) (str : ∀ t, P (.str t))
    (list : ∀ vs, (∀ v ∈ vs, P v) → P (.list vs))
    (dict : ∀ kvs : Dict, (∀ p ∈ kvs, P p.2) → P (.dict kvs)) (v : Value) : P v :=
  @Value.rec P (fun vs => ∀ v ∈ vs, P v) (fun kvs => ∀ p ∈ kvs, P p.2) (fun p => P p.2)
    none bool int float str list dict (fun _ hv => absurd hv List.not_mem_nil)
    (fun _ _ hv hvs => List.forall_mem_cons.mpr ⟨hv, hvs⟩)
    (fun _ hp => absurd hp List.not_mem_nil)
    (fun _ _ hp hkvs => List.forall_mem_cons.mpr ⟨hp, hkvs⟩) (fun _ _ hv => hv) v

/-- `kvs[k]` -/
def getItem (kvs : Dict) (k : Text) : Except Exn Value :=
  match get? kvs k with
  | some v => .ok v
  | none => .error { kind := .KeyError, msg := quoted (String.ofList k) }

/-! ## Values -/

/-- The name of the class, in the texts of exceptions. -/
def typeName : Value → String
  | .none => "NoneType"
  | .bool _ => "bool"
  | .int _ => "int"
  | .float _ => "float"
  | .str _ => "str"
  | .list _ => "list"
  | .dict _ => "dict"

/-- `bool(v)` -/
def truthy : Value → Bool
  | .none => false
  | .bool b => b
  | .int i => i ≠ 0
  | .float x => x ≠ .fin 0
  | .str t => t ≠ []
  | .list vs => ! vs.isEmpty
  | .dict kvs => ! kvs.isEmpty

/-- `v[k]`, for a text `k`. -/
def subscript (v : Value) (k : Text) : Except Exn Value :=
  match v with
  | .dict kvs => getItem kvs k
  | .list _ => .error
    { kind := .TypeError, msg := "list indices must be integers or slices, not str" }
  | .str _ => .error { kind := .TypeError, msg := "string indices must be integers, not 'str'" }
  | v => .error { kind := .TypeError, msg := s!"'{typeName v}' object is not subscriptable" }

/-- What a value is as a number. -/
def number? : Value → Option PyFloat
  | .bool b => some (.fin (if b then 1 else 0))
  | .int i => some (.fin i)
  | .float x => some x
  | _ => none

def isStr (t : Text) : Value → Bool
  | .str u => u = t
  | _ => false

/-- `t in v`, for a text `t`. -/
def contains (t : Text) : Value → Except Exn Bool
  | .str u => .ok (decide (t <:+: u))
  | .list vs => .ok (vs.any (isStr t))
  | .dict kvs => .ok (kvs.any (·.1 = t))
  | v => .error
    { kind := .TypeError, msg := s!"argument of type '{typeName v}' is not iterable" }

/-- `list(v)` -/
def iterate : Value → Except Exn (List Value)
  | .list vs => .ok vs
  | .dict kvs => .ok (kvs.map fun p => .str p.1)
  | .str t => .ok (t.map fun c => .str [c])
  | v => .error { kind := .TypeError, msg := s!"'{typeName v}' object is not iterable" }

def noAttribute (v : Value) (attr : String) : Exn :=
  { kind := .AttributeError, msg := s!"'{typeName v}' object has no attribute '{attr}'" }

/-- `str(q)` for a float of at most two decimals. -/
def floatText? (x : PyFloat) : Option Text :=
  match x with
  | .fin q => if (hundredths q : ℚ) = 100 * q then some (hundredthsText (hundredths q)) else none
  | .inf => some "inf".toList
  | .neginf => some "-inf".toList
  | .nan => some "nan".toList

/-- `str(v)`. Longer floats, lists and dicts are left to `repr`. -/
def str (repr : Value → Text) : Value → Text
  | .none => "None".toList
  | .bool b => if b then "True".toList else "False".toList
  | .int i => intText i
  | .float x => (floatText? x).getD (repr (.float x))
  | .str t => t
  | v => repr v

/-! ## Arithmetic -/

/-- `v == 0` -/
def isZero (v : Value) : Bool := number? v = some (.fin 0)

def noOperand (op : String) (v : Value) : Exn :=
  { kind := .TypeError
    msg := s!"unsupported operand type(s) for {op}: '{typeName v}' and 'int'" }

/-- `x * n` and `x / n`, for a whole number above zero. -/
def scaleFloat (f : ℚ → ℚ) : PyFloat → PyFloat
  | .fin q => .fin (f q)
  | x => x

/-- `v *= n` -/
def timesInt (v : Value) (n : Nat) : Except Exn Value :=
  match v with
  | .bool b => .ok (.int (if b then n else 0))
  | .int i => .ok (.int (i * n))
  | .float x => .ok (.float (scaleFloat (· * n) x))
  | .str t => .ok (.str (List.replicate n t).flatten)
  | .list vs => .ok (.list (List.replicate n vs).flatten)
  | v => .error (noOperand "*=" v)

/-- `v /= n` -/
def overInt (v : Value) (n : Nat) : Except Exn Value :=
  match number? v with
  | some x => .ok (.float (scaleFloat (· / n) x))
  | none => .error (noOperand "/=" v)

def noWhole : PyFloat → Exn
  | .nan => { kind := .ValueError, msg := "cannot convert float NaN to integer" }
  | _ => { kind := .OverflowError, msg := "cannot convert float infinity to integer" }

/-- `int(round(v))` -/
def roundInt (v : Value) : Except Exn Int :=
  match number? v with
  | some (.fin q) => .ok (roundHalfEven q)
  | some x => .error (noWhole x)
  | none => .error
    { kind := .TypeError, msg := s!"type {typeName v} doesn't define __round__ method" }

/-- `int(t)` for any text. -/
def intOfText (t : Text) : Option Int :=
  match digitpart (signed (strip t)).2 with
  | some (ds, []) =>
    if ds.length > 4300 then none
    else some (if (signed (strip t)).1 then - (digitsValue ds : Int) else digitsValue ds)
  | _ => none

/-- `int(v)` -/
def toInt (v : Value) : Except Exn Int :=
  match v with
  | .str t =>
    match intOfText t with
    | some i => .ok i
    | none => .error { kind := .ValueError, msg := "invalid literal for int() with base 10" }
  | v =>
    match number? v with
    | some (.fin q) => .ok (q.num.tdiv q.den)
    | some x => .error (noWhole x)
    | none =>
      let name := typeName v
      .error
        { kind := .TypeError
          msg := "int() argument must be a string, a bytes-like object or a real number, not '" ++
            name ++ "'" }

theorem roundInt_int (i : Int) : roundInt (.int i) = .ok i := by
  rw [roundInt, number?]
  exact congrArg _ (roundHalfEven_intCast i)

theorem roundInt_intCast {v : Value} {i : Int} (h : number? v = some (.fin (i : ℚ))) :
    roundInt v = .ok i := by
  rw [roundInt, h]
  exact congrArg _ (roundHalfEven_intCast i)

theorem intText_natCast (n : Nat) : intText n = natText n := by
  simp [intText]

/-- `int` reads what `str` writes for a whole number, unless there are too many digits. -/
theorem intOfText_intText (i : Int) :
    intOfText (intText i) = if (natText i.natAbs).length > 4300 then none else some i := by
  have hdigits := digitpart_natText i.natAbs (r := []) rfl
  rw [List.append_nil] at hdigits
  unfold intOfText intText
  by_cases hi : i < 0
  · rw [if_pos hi, (strip_of_ends (natText_ends i.natAbs)).2]
    simp only [signed, hdigits, List.length_map, digitsValue_natText, if_true]
    rw [show -(i.natAbs : Int) = i by omega]
  · rw [if_neg hi, (strip_of_ends (natText_ends i.natAbs)).1,
      signed_of_ends (natText_ends i.natAbs)]
    simp only [hdigits, List.length_map, digitsValue_natText, Bool.false_eq_true, if_false]
    rw [show (i.natAbs : Int) = i by omega]

theorem intOfText_natText {n : Nat} (h : n < 10 ^ 20) : intOfText (natText n) = some (n : Int) := by
  have hlength : (natText n).length ≤ 20 :=
    (Nat.length_toDigits_le_iff (by decide) (by decide)).mpr h
  rw [← intText_natCast, intOfText_intText, Int.natAbs_natCast, if_neg (by omega)]

/-! ## Equality -/

mutual

/-- `v == w` -/
def same : Value → Value → Bool
  | .none, .none => true
  | .str t, .str u => t = u
  | .list vs, .list ws => sameList vs ws
  | .dict kvs, .dict lws => kvs.length = lws.length && sameIn kvs lws
  | .bool a, w => number? w = some (.fin (if a then 1 else 0))
  | .int i, w => number? w = some (.fin i)
  | .float (.fin q), w => number? w = some (.fin q)
  | .float .inf, w => number? w = some .inf
  | .float .neginf, w => number? w = some .neginf
  | _, _ => false

def sameList : List Value → List Value → Bool
  | [], [] => true
  | v :: vs, w :: ws => same v w && sameList vs ws
  | _, _ => false

/-- Whether the second dict has all that the first has. -/
def sameIn : Dict → Dict → Bool
  | [], _ => true
  | (k, v) :: kvs, lws =>
    (match get? lws k with
      | some w => same v w
      | none => false) && sameIn kvs lws

end

@[simp] theorem same_str (t u : Text) : same (.str t) (.str u) = decide (t = u) := by rw [same]

theorem sameIn_iff {kvs lws : Dict} :
    sameIn kvs lws = true ↔ ∀ p ∈ kvs, ∃ w, get? lws p.1 = some w ∧ same p.2 w = true := by
  induction kvs with
  | nil => simp [sameIn]
  | cons p kvs ih =>
    rw [sameIn, Bool.and_eq_true, ih, List.forall_mem_cons]
    cases get? lws p.1 <;> simp

/-- Two dicts of one list of keys are equal where their values are. -/
theorem same_dict_of_keys {α : Type} {as : List α} {key : α → Text} {f g : α → Value}
    (hkeys : (as.map key).Nodup) (h : ∀ a ∈ as, same (f a) (g a) = true) :
    same (.dict (as.map fun a => (key a, f a))) (.dict (as.map fun a => (key a, g a))) = true := by
  rw [same, Bool.and_eq_true, sameIn_iff]
  refine ⟨by simp, fun p hp => ?_⟩
  obtain ⟨a, ha, rfl⟩ := List.mem_map.mp hp
  refine ⟨g a, get?_of_mem ?_ (List.mem_map_of_mem ha), h a ha⟩
  rw [List.map_map]
  exact hkeys

end py_value
