import ThreatTree.Value.Calendar
import ThreatTree.Decimal.Shortest

/-!
# Values

What a data file holds once it is read: scalars of several kinds, lists, and mappings whose
keys are values again. The entries of a mapping keep their order, and setting a key that is
there already keeps its place and changes only its value (`keys_set_of_present`).

Keys are the same by what they denote: whole numbers, floating-point numbers and booleans
are compared as numbers, so that `1`, `1.0` and `true` are one key.
-/

namespace ThreatTree

open Calendar

/-- A value of a data file. -/
inductive Value where
  | null
  | bool (b : Bool)
  | int (n : Int)
  | float (x : Float)
  | str (s : String)
  | bytes (bs : List UInt8)
  | date (d : Date)
  | moment (m : Moment)
  | list (items : List Value)
  | tuple (items : List Value)
  | set (items : List Value)
  | mapping (entries : List (Value × Value))
  deriving Inhabited, Repr

namespace Value

/-! ## Comparison of keys -/

/-- The size of a binary number equals a natural number. -/
def sameSize (b : Decimal.Binary) (n : Nat) : Bool :=
  b.mantissa * Nat.pow 2 b.exponent.toNat == n * Nat.pow 2 (-b.exponent).toNat

/-- A floating-point number denotes exactly this whole number. -/
def floatIsInt (x : Float) (n : Int) : Bool :=
  match Decimal.classify x with
  | .finite negative b => sameSize b n.natAbs && (n == 0 || negative == decide (n < 0))
  | _ => false

/-- The whole number that a whole number or a boolean stands for. -/
def asInt? : Value → Option Int
  | .int n => some n
  | .bool b => some (if b then 1 else 0)
  | _ => none

/-- Numbers are compared as numbers, scalars of one kind by what they denote. -/
def sameScalar (a b : Value) : Bool :=
  match a, b with
  | .null, .null => true
  | .float x, .float y => x == y
  | .str s, .str t => s == t
  | .bytes s, .bytes t => s == t
  | .date d, .date e => d == e
  | .moment m, .moment n => m.same n
  | .float x, b => b.asInt?.any (floatIsInt x)
  | a, .float y => a.asInt?.any (floatIsInt y)
  | a, b =>
    match a.asInt?, b.asInt? with
    | some m, some n => m == n
    | _, _ => false

mutual

/-- Two values are the same key. Tuples are compared item by item; a list, a set or a mapping
is never a key. -/
def sameKey : Value → Value → Bool
  | .tuple as, .tuple bs => sameKeys as bs
  | .tuple _, _ => false
  | _, .tuple _ => false
  | a, b => sameScalar a b

def sameKeys : List Value → List Value → Bool
  | [], [] => true
  | a :: as, b :: bs => sameKey a b && sameKeys as bs
  | _, _ => false

end

mutual

/-- The value may stand as a key: it holds no list, set or mapping. -/
def isKey : Value → Bool
  | .list _ | .set _ | .mapping _ => false
  | .tuple items => areKeys items
  | _ => true

def areKeys : List Value → Bool
  | [] => true
  | v :: vs => isKey v && areKeys vs

end

theorem sameKey_str_iff {k : Value} {name : String} :
    sameKey k (.str name) = true ↔ k = .str name := by
  cases k <;> simp [sameKey, sameScalar, asInt?]

/-! ## Entries -/

/-- The entries of a mapping, in order. -/
abbrev Entries := List (Value × Value)

namespace Entries

/-- Set a key: in its place if it is there, else at the end. -/
def set (key value : Value) : Entries → Entries
  | [] => [(key, value)]
  | (k, v) :: rest => if sameKey k key then (k, value) :: rest else (k, v) :: set key value rest

/-- The entries that result from setting pairs one after the other. -/
def ofPairs (pairs : List (Value × Value)) : Entries :=
  pairs.foldl (fun es p => set p.1 p.2 es) []

def keys (es : Entries) : List Value := es.map (·.1)

/-- The value under a name. -/
def get? (name : String) : Entries → Option Value
  | [] => none
  | (.str k, v) :: rest => if k = name then some v else get? name rest
  | _ :: rest => get? name rest

theorem mem_of_get? {name : String} {entries : Entries} {v : Value}
    (h : get? name entries = some v) : (.str name, v) ∈ entries := by
  fun_induction get? name entries with
  | case1 => exact absurd h (by simp)
  | case2 w rest =>
    obtain rfl := Option.some.inj h
    exact List.mem_cons_self
  | case3 k w rest hk ih => exact List.mem_cons_of_mem _ (ih h)
  | case4 e rest hk ih => exact List.mem_cons_of_mem _ (ih h)

/-- What is set is found, and all else is found as before. -/
theorem get?_set (name key : String) (value : Value) (es : Entries) :
    get? name (set (.str key) value es) = if name = key then some value else get? name es := by
  induction es with
  | nil => simp [set, get?, eq_comm]
  | cons e es ih =>
    obtain ⟨k, v⟩ := e
    rw [set]
    by_cases hk : sameKey k (.str key) = true
    · obtain rfl := sameKey_str_iff.1 hk
      rw [if_pos hk, get?, get?]
      by_cases hname : name = key
      · rw [if_pos hname.symm, if_pos hname]
      · rw [if_neg (Ne.symm hname), if_neg hname, if_neg (Ne.symm hname)]
    · rw [if_neg hk]
      -- The entry in front is passed over, or has another name than the key.
      have hne : ∀ k', k = .str k' → k' ≠ key := by
        rintro k' rfl rfl
        exact hk (sameKey_str_iff.2 rfl)
      cases k with
      | str k' =>
        rw [get?, get?, ih]
        by_cases hname : k' = name
        · subst hname
          rw [if_pos rfl, if_pos rfl, if_neg (hne k' rfl)]
        · rw [if_neg hname, if_neg hname]
      | _ => simpa only [get?] using ih

/-- Setting a key that is present changes no key and no place. -/
theorem keys_set_of_present {key : Value} (value : Value) {es : Entries}
    (h : ∃ k ∈ es.keys, sameKey k key = true) : (set key value es).keys = es.keys := by
  induction es with
  | nil => simp [keys] at h
  | cons e es ih =>
    obtain ⟨k, v⟩ := e
    by_cases hk : sameKey k key = true
    · simp [set, hk, keys]
    · simp only [keys, List.map_cons, List.mem_cons, exists_eq_or_imp, hk, Bool.false_eq_true,
        false_or] at h
      simpa [set, hk, keys] using ih h

end Entries

end Value

end ThreatTree
