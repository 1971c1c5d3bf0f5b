/-!
# TOML values

The tree that a configuration document denotes.  No setting is a float or a date, so these keep only
the text they were written with.  Whether two values are the same can be decided (`Value.same_iff`).
-/

namespace EchoLog.Toml

/-- A value of a document. -/
inductive Value where
  | string (text : String)
  | integer (value : Int)
  | float (literal : String)
  | boolean (value : Bool)
  | moment (literal : String)
  | array (items : List Value)
  | table (entries : List (String × Value))
deriving Inhabited, Repr

mutual

/-- Whether two values are the same. -/
def Value.same : Value → Value → Bool
  | .string a, .string b => a == b
  | .integer a, .integer b => a == b
  | .float a, .float b => a == b
  | .boolean a, .boolean b => a == b
  | .moment a, .moment b => a == b
  | .array vs, .array ws => sameItems vs ws
  | .table es, .table fs => sameEntries es fs
  | _, _ => false

def sameItems : List Value → List Value → Bool
  | [], [] => true
  | v :: vs, w :: ws => v.same w && sameItems vs ws
  | _, _ => false

def sameEntries : List (String × Value) → List (String × Value) → Bool
  | [], [] => true
  | (a, v) :: es, (b, w) :: fs => a == b && v.same w && sameEntries es fs
  | _, _ => false

end

mutual

theorem Value.same_iff : ∀ v w : Value, v.same w = true ↔ v = w
  | .array vs, w => by cases w <;> simp [Value.same, sameItems_iff vs]
  | .table es, w => by cases w <;> simp [Value.same, sameEntries_iff es]
  | .string a, w => by cases w <;> simp [Value.same]
  | .integer a, w => by cases w <;> simp [Value.same]
  | .float a, w => by cases w <;> simp [Value.same]
  | .boolean a, w => by cases w <;> simp [Value.same]
  | .moment a, w => by cases w <;> simp [Value.same]

theorem sameItems_iff : ∀ vs ws : List Value, sameItems vs ws = true ↔ vs = ws
  | [], ws => by cases ws <;> simp [sameItems]
  | v :: vs, ws => by cases ws <;> simp [sameItems, v.same_iff, sameItems_iff vs]

theorem sameEntries_iff : ∀ es fs : List (String × Value), sameEntries es fs = true ↔ es = fs
  | [], fs => by cases fs <;> simp [sameEntries]
  | (a, v) :: es, fs => by
      cases fs <;> simp [sameEntries, v.same_iff, sameEntries_iff es, Prod.ext_iff]

end

instance : DecidableEq Value :=
  fun v w => decidable_of_iff _ (v.same_iff w)

end EchoLog.Toml
