/-!
Loosely typed data: syntax trees, snapshots and settings files as they are read, before anything is
known about their shape. Objects keep their fields in reading order.
-/

namespace ImportRedirect

/-- Numbers written with a fraction or an exponent, and the three that have no digits. -/
inductive Decimal where
  /-- `coefficient * 10 ^ exponent` -/
  | finite (coefficient : Int) (exponent : Int)
  | infinite (negative : Bool)
  | undefined
  deriving DecidableEq, Repr

inductive Value where
  | null
  | bool (b : Bool)
  | int (i : Int)
  | real (r : Decimal)
  | moment (text : String)
  | str (s : String)
  | arr (items : List Value)
  | obj (fields : List (String × Value))
  deriving Repr, Inhabited

namespace Value

mutual

def decEq : (v w : Value) → Decidable (v = w)
  | .null, .null => isTrue rfl
  | .bool a, .bool b => decidable_of_iff (a = b) (by simp)
  | .int a, .int b => decidable_of_iff (a = b) (by simp)
  | .real a, .real b => decidable_of_iff (a = b) (by simp)
  | .moment a, .moment b => decidable_of_iff (a = b) (by simp)
  | .str a, .str b => decidable_of_iff (a = b) (by simp)
  | .arr a, .arr b => @decidable_of_iff _ (a = b) (by simp) (decEqList a b)
  | .obj a, .obj b => @decidable_of_iff _ (a = b) (by simp) (decEqFields a b)
  | .null, .bool _ | .null, .int _ | .null, .real _ | .null, .moment _ | .null, .str _
  | .null, .arr _ | .null, .obj _ => isFalse (by simp)
  | .bool _, .null | .bool _, .int _ | .bool _, .real _ | .bool _, .moment _ | .bool _, .str _
  | .bool _, .arr _ | .bool _, .obj _ => isFalse (by simp)
  | .int _, .null | .int _, .bool _ | .int _, .real _ | .int _, .moment _ | .int _, .str _
  | .int _, .arr _ | .int _, .obj _ => isFalse (by simp)
  | .real _, .null | .real _, .bool _ | .real _, .int _ | .real _, .moment _ | .real _, .str _
  | .real _, .arr _ | .real _, .obj _ => isFalse (by simp)
  | .moment _, .null | .moment _, .bool _ | .moment _, .int _ | .moment _, .real _
  | .moment _, .str _ | .moment _, .arr _ | .moment _, .obj _ => isFalse (by simp)
  | .str _, .null | .str _, .bool _ | .str _, .int _ | .str _, .real _ | .str _, .moment _
  | .str _, .arr _ | .str _, .obj _ => isFalse (by simp)
  | .arr _, .null | .arr _, .bool _ | .arr _, .int _ | .arr _, .real _ | .arr _, .moment _
  | .arr _, .str _ | .arr _, .obj _ => isFalse (by simp)
  | .obj _, .null | .obj _, .bool _ | .obj _, .int _ | .obj _, .real _ | .obj _, .moment _
  | .obj _, .str _ | .obj _, .arr _ => isFalse (by simp)

def decEqList : (v w : List Value) → Decidable (v = w)
  | [], [] => isTrue rfl
  | [], _ :: _ => isFalse (by simp)
  | _ :: _, [] => isFalse (by simp)
  | a :: v, b :: w =>
    match decEq a b with
    | isFalse different => isFalse (by simp [different])
    | isTrue equal => @decidable_of_iff _ (v = w) (by simp [equal]) (decEqList v w)

def decEqFields : (v w : List (String × Value)) → Decidable (v = w)
  | [], [] => isTrue rfl
  | [], _ :: _ => isFalse (by simp)
  | _ :: _, [] => isFalse (by simp)
  | (j, a) :: v, (k, b) :: w =>
    if key : j = k then
      match decEq a b with
      | isFalse different => isFalse (by simp [different])
      | isTrue equal => @decidable_of_iff _ (v = w) (by simp [key, equal]) (decEqFields v w)
    else isFalse (by simp [key])

end

instance : DecidableEq Value := decEq

def lookup (key : String) : List (String × Value) → Option Value
  | [] => none
  | (k, v) :: rest => if k == key then some v else lookup key rest

/-- The fields with that one set: in its place when it is there, at the end otherwise. -/
def insert (key : String) (value : Value) : List (String × Value) → List (String × Value)
  | [] => [(key, value)]
  | (k, v) :: rest => if k == key then (k, value) :: rest else (k, v) :: insert key value rest

@[simp] theorem lookup_insert_self (key : String) (value : Value) (fields : List (String × Value)) :
    lookup key (insert key value fields) = some value := by
  induction fields with
  | nil => simp [insert, lookup]
  | cons field rest inductionHypothesis =>
    obtain ⟨k, v⟩ := field
    by_cases same : k = key <;> simp [insert, lookup, same, inductionHypothesis]

theorem lookup_insert_of_ne {key other : String} (different : other ≠ key) (value : Value)
    (fields : List (String × Value)) :
    lookup other (insert key value fields) = lookup other fields := by
  induction fields with
  | nil => simp [insert, lookup, different.symm]
  | cons field rest inductionHypothesis =>
    obtain ⟨k, v⟩ := field
    by_cases same : k = key
    · subst same
      simp [insert, lookup, different.symm]
    · by_cases found : k = other
      · subst found
        simp [insert, lookup, same]
      · simp [insert, lookup, same, found, inductionHypothesis]

/-- Whether a value counts as present where presence decides: not null, false, zero or empty. -/
def isPresent : Value → Bool
  | .null => false
  | .bool b => b
  | .int i => i != 0
  | .real (.finite c _) => c != 0
  | .real _ => true
  | .moment _ => true
  | .str s => s != ""
  | .arr items => !items.isEmpty
  | .obj fields => !fields.isEmpty

/-- A value that stands for a number: truth values count as one and zero. -/
def numeral : Value → Option Decimal
  | .bool b => some (.finite (if b then 1 else 0) 0)
  | .int i => some (.finite i 0)
  | .real r => some r
  | _ => none

end Value

def Decimal.same : Decimal → Decimal → Bool
  | .finite c e, .finite d f =>
    let low := min e f
    c * Int.pow 10 (e - low).toNat == d * Int.pow 10 (f - low).toNat
  | .infinite a, .infinite b => a == b
  | _, _ => false

namespace Value

mutual

/-- Equal up to the order of fields and the way numbers are written. -/
def same : Value → Value → Bool
  | .null, .null => true
  | .moment a, .moment b => a == b
  | .str a, .str b => a == b
  | .arr a, .arr b => sameList a b
  | .obj a, .obj b => a.length == b.length && sameFields a b
  | v, w =>
    match v.numeral, w.numeral with
    | some a, some b => a.same b
    | _, _ => false

def sameList : List Value → List Value → Bool
  | [], [] => true
  | a :: v, b :: w => same a b && sameList v w
  | _, _ => false

def sameFields : List (String × Value) → List (String × Value) → Bool
  | [], _ => true
  | (k, v) :: rest, fields =>
    (match lookup k fields with
      | some w => same v w
      | none => false) && sameFields rest fields

end

def distinct : List Value → List Value
  | [] => []
  | v :: rest => v :: (distinct rest).filter (!v.same ·)

mutual

def depth : Value → Nat
  | .arr items => depthList items + 1
  | .obj fields => depthFields fields + 1
  | _ => 0

def depthList : List Value → Nat
  | [] => 0
  | v :: rest => max v.depth (depthList rest)

def depthFields : List (String × Value) → Nat
  | [] => 0
  | (_, v) :: rest => max v.depth (depthFields rest)

end

end Value

end ImportRedirect
