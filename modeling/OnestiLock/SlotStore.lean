import Mathlib.Data.Int.Order.Basic
import Mathlib.Data.List.Basic
import Mathlib.Data.Nat.Basic
import Mathlib.Logic.Function.Basic
import OnestiLock.Errors

/-! The slot store of a config entry: what the options hold, what a coordinator
loads from them and saves into them (`coordinator.py`, `pin_rules.py`), and what
each operation means for the stored slots. -/

namespace OnestiLock

/-- A record with the keys of `DEFAULT_SLOT`. -/
structure Slot where
  name : String
  hasPin : Bool
  deriving DecidableEq, Repr

def defaultSlot : Slot := ⟨"", false⟩

/-- A record as the options hold it, where either key may be missing. -/
structure StoredSlot where
  name : Option String
  hasPin : Option Bool
  deriving DecidableEq, Repr

abbrev Slots := String → Option Slot

abbrev Capabilities := String → Option Int

/-- An option other than the slots. A float is given by the integer it is
equal to, if there is one. -/
inductive OptionValue
  | flag (value : Bool)
  | integer (value : Int)
  | float (value : Option Int)
  | mapping (value : Capabilities)
  | other

structure Options where
  slots : Option (String → Option StoredSlot)
  rest : String → Option OptionValue

/-- `{**options, key: value}` for a key other than the slots. -/
def Options.set (options : Options) (key : String) (value : OptionValue) : Options :=
  { options with rest := Function.update options.rest key (some value) }

def confReservedSlots : String := "reserved_slots"

def optionCapabilities : String := "capabilities"

def reservedSlotsMin : Int := 1

def reservedSlotsMax : Int := 3

def slotFirstUser : Int := 3

def firstUserSlot (options : Options) : Int :=
  match options.rest confReservedSlots with
  | some (.integer value) | some (.float (some value)) =>
    max reservedSlotsMin (min reservedSlotsMax value)
  | _ => slotFirstUser

/-- `_check_writable`, with the text of its `ValueError`. -/
def checkWritable (options : Options) (slot : Int) : Except String Unit :=
  let first := firstUserSlot options
  if slot < first then
    .error (s!"Slot {slot} is a reserved master slot on this lock; " ++
      s!"PIN writes and clears start at slot {first}")
  else .ok ()

theorem firstUserSlot_range (options : Options) :
    reservedSlotsMin ≤ firstUserSlot options ∧ firstUserSlot options ≤ slotFirstUser := by
  unfold firstUserSlot
  split <;> simp only [reservedSlotsMin, reservedSlotsMax, slotFirstUser] <;> omega

theorem checkWritable_ok {options : Options} {slot : Int} :
    checkWritable options slot = .ok () ↔ firstUserSlot options ≤ slot := by
  unfold checkWritable
  by_cases h : slot < firstUserSlot options
  · simp only [h, if_true, reduceCtorEq, false_iff]
    omega
  · simp only [h, if_false, true_iff]
    omega

def slotKey (slot : Int) : String := toString slot

theorem repr_injective : Function.Injective Nat.repr := by
  intro a b h
  have hdigits : Nat.toDigits 10 a = Nat.toDigits 10 b := by
    rw [← Nat.toList_repr, ← Nat.toList_repr, h]
  have hvalue := congrArg (fun l => Nat.ofDigitChars 10 l 0) hdigits
  simpa only [Nat.ofDigitChars_ten_toDigits] using hvalue

theorem repr_ne_minus (n : Nat) (text : String) : n.repr ≠ "-" ++ text := by
  intro h
  have hminus : '-' ∈ Nat.toDigits 10 n := by
    rw [← Nat.toList_repr, h, String.toList_append]
    exact List.mem_cons_self
  have hdigit : ('-').isDigit = true := Nat.isDigit_of_mem_toDigits (by decide) (by decide) hminus
  exact absurd hdigit (by decide)

theorem slotKey_injective : Function.Injective slotKey := by
  intro a b h
  have hrepr : a.repr = b.repr := h
  rw [Int.repr_eq_if, Int.repr_eq_if] at hrepr
  split at hrepr
  · split at hrepr
    · have := repr_injective hrepr
      omega
    · exact absurd hrepr (repr_ne_minus _ _)
  · split at hrepr
    · exact absurd hrepr.symm (repr_ne_minus _ _)
    · have := repr_injective ((String.append_right_inj "-").mp hrepr)
      omega

def StoredSlot.load (v : StoredSlot) : Slot :=
  ⟨v.name.getD defaultSlot.name, v.hasPin.getD defaultSlot.hasPin⟩

def Slot.store (s : Slot) : StoredSlot := ⟨some s.name, some s.hasPin⟩

@[simp] theorem Slot.load_store (s : Slot) : s.store.load = s := rfl

/-- What `_load_slots` reads. -/
def Options.loadSlots (options : Options) : Slots :=
  fun key => (options.slots.getD (fun _ => none) key).map StoredSlot.load

/-- The options `_save_slots` writes. -/
def Options.saveSlots (options : Options) (slots : Slots) : Options :=
  { options with slots := some (fun key => (slots key).map Slot.store) }

def getSlot (slots : Slots) (slot : Int) : Slot := (slots (slotKey slot)).getD defaultSlot

@[simp] theorem Options.loadSlots_saveSlots (options : Options) (slots : Slots) :
    (options.saveSlots slots).loadSlots = slots := by
  funext key
  simp only [loadSlots, saveSlots, Option.getD_some, Option.map_map]
  cases slots key <;> rfl

@[simp] theorem Options.rest_saveSlots (options : Options) (slots : Slots) :
    (options.saveSlots slots).rest = options.rest := rfl

/-- A write under one slot's key is a write to that slot alone. -/
theorem getSlot_update (slots : Slots) (slot : Int) (record : Option Slot) :
    getSlot (Function.update slots (slotKey slot) record) =
      Function.update (getSlot slots) slot (record.getD defaultSlot) := by
  funext other
  by_cases h : other = slot
  · subst h
    simp only [getSlot, Function.update_self]
  · have hkey : slotKey other ≠ slotKey slot := fun he => h (slotKey_injective he)
    simp only [getSlot, Function.update_of_ne hkey, Function.update_of_ne h]

inductive PinOp
  | setPin (slot : Int) (name code : String)
  | clearPin (slot : Int)
  | clearSlot (slot : Int)
  deriving DecidableEq, Repr

/-- A command to the Door Lock cluster, with its id and its parameters. -/
inductive ClusterCommand
  | setPinCode (userId : Int) (userStatus userType : Nat) (pinCode : String)
  | clearPinCode (userId : Int)
  deriving DecidableEq, Repr

def ClusterCommand.id : ClusterCommand → Nat
  | setPinCode .. => 0x0005
  | clearPinCode _ => 0x0007

namespace PinOp

def slot : PinOp → Int
  | setPin slot _ _ | clearPin slot | clearSlot slot => slot

def request : PinOp → ClusterCommand
  | setPin slot _ code => .setPinCode slot 1 0 code
  | clearPin slot | clearSlot slot => .clearPinCode slot

/-- The change a delivered operation makes to the loaded slots. -/
def record (op : PinOp) (slots : Slots) : Slots :=
  let current := (slots (slotKey op.slot)).getD defaultSlot
  match op with
  | setPin slot name _ =>
    Function.update slots (slotKey slot) (some { current with name := name, hasPin := true })
  | clearPin slot => Function.update slots (slotKey slot) (some { current with hasPin := false })
  | clearSlot slot => Function.update slots (slotKey slot) (some defaultSlot)

/-- What the operation means for the slot it is about. -/
def apply : PinOp → Slot → Slot
  | setPin _ name _, _ => ⟨name, true⟩
  | clearPin _, s => { s with hasPin := false }
  | clearSlot _, _ => defaultSlot

/-- Whether the slot holds a code once the lock has executed the operation. -/
def leavesPin : PinOp → Bool
  | setPin .. => true
  | clearPin _ | clearSlot _ => false

theorem hasPin_apply (op : PinOp) (s : Slot) : (op.apply s).hasPin = op.leavesPin := by
  cases op <;> rfl

theorem getSlot_record (op : PinOp) (slots : Slots) :
    getSlot (op.record slots) =
      Function.update (getSlot slots) op.slot (op.apply (getSlot slots op.slot)) := by
  cases op with
  | setPin slot name code => exact getSlot_update ..
  | clearPin slot => exact getSlot_update ..
  | clearSlot slot => exact getSlot_update ..

end PinOp

/-- The slots `set_slot_name` saves, `none` where it returns without saving. -/
def renameSlot (slots : Slots) (slot : Int) (name : String) : Option Slots :=
  let key := slotKey slot
  if name ≠ "" then
    some (Function.update slots key (some { (slots key).getD defaultSlot with name := name }))
  else
    match slots key with
    | some current =>
      let blank : Slot := { current with name := "" }
      if blank = defaultSlot then some (Function.update slots key none)
      else some (Function.update slots key (some blank))
    | none => none

theorem getSlot_renameSlot {slots renamed : Slots} {slot : Int} {name : String}
    (h : renameSlot slots slot name = some renamed) :
    getSlot renamed =
      Function.update (getSlot slots) slot { getSlot slots slot with name := name } := by
  unfold renameSlot at h
  by_cases hn : name = ""
  · cases hs : slots (slotKey slot) with
    | none => simp [hn, hs] at h
    | some current =>
      have hcur : getSlot slots slot = current := by simp [getSlot, hs]
      simp only [hn, hs, ne_eq, not_true_eq_false, if_false] at h
      rw [hcur, hn]
      by_cases hb : { current with name := "" } = defaultSlot
      · rw [if_pos hb, Option.some.injEq] at h
        rw [← h, getSlot_update, hb]
        rfl
      · rw [if_neg hb, Option.some.injEq] at h
        rw [← h, getSlot_update]
        rfl
  · simp only [ne_eq, hn, not_false_eq_true, if_true, Option.some.injEq] at h
    rw [← h, getSlot_update]
    rfl

theorem renameSlot_eq_none {slots : Slots} {slot : Int} {name : String}
    (h : renameSlot slots slot name = none) :
    Function.update (getSlot slots) slot { getSlot slots slot with name := name } =
      getSlot slots := by
  unfold renameSlot at h
  by_cases hn : name = ""
  · cases hs : slots (slotKey slot) with
    | none =>
      have hcur : getSlot slots slot = defaultSlot := by simp [getSlot, hs]
      rw [hcur, hn]
      exact Function.update_eq_self_iff.mpr hcur.symm
    | some current =>
      simp only [hn, hs, ne_eq, not_true_eq_false, if_false] at h
      split_ifs at h
  · simp [hn] at h

/-! What the stored options say, apart from how they are kept. -/

@[ext] structure Store where
  slots : Int → Slot
  rest : String → Option OptionValue

def Options.store (options : Options) : Store := ⟨getSlot options.loadSlots, options.rest⟩

inductive Effect
  | pin (op : PinOp)
  | name (slot : Int) (name : String)
  | capabilities (reported : Capabilities)
  | settings (reservedSlots : Int)

/-- The slot an effect is about. -/
def Effect.slot? : Effect → Option Int
  | pin op => some op.slot
  | name slot _ => some slot
  | capabilities _ | settings _ => none

def Store.apply (s : Store) : Effect → Store
  | .pin op => { s with slots := Function.update s.slots op.slot (op.apply (s.slots op.slot)) }
  | .name slot name =>
    { s with slots := Function.update s.slots slot { s.slots slot with name := name } }
  | .capabilities reported =>
    { s with rest := Function.update s.rest optionCapabilities (some (.mapping reported)) }
  | .settings reservedSlots =>
    { s with rest := Function.update s.rest confReservedSlots (some (.integer reservedSlots)) }

theorem Store.slots_apply_of_ne {s : Store} {e : Effect} {slot : Int} (h : e.slot? ≠ some slot) :
    (s.apply e).slots slot = s.slots slot := by
  cases e with
  | pin op => exact Function.update_of_ne (fun he => h (congrArg some he.symm)) ..
  | name other name => exact Function.update_of_ne (fun he => h (congrArg some he.symm)) ..
  | capabilities reported => rfl
  | settings reservedSlots => rfl

theorem Store.rest_apply_of_slot {s : Store} {e : Effect} {slot : Int} (h : e.slot? = some slot) :
    (s.apply e).rest = s.rest := by
  cases e with
  | pin op => rfl
  | name other name => rfl
  | capabilities reported => simp [Effect.slot?] at h
  | settings reservedSlots => simp [Effect.slot?] at h

theorem Options.store_record (options : Options) (op : PinOp) :
    (options.saveSlots (op.record options.loadSlots)).store = options.store.apply (.pin op) := by
  apply Store.ext
  · simp only [store, loadSlots_saveSlots, PinOp.getSlot_record, Store.apply]
  · rfl

theorem Options.store_rename {options : Options} {slots : Slots} {slot : Int} {name : String}
    (h : renameSlot options.loadSlots slot name = some slots) :
    (options.saveSlots slots).store = options.store.apply (.name slot name) := by
  apply Store.ext
  · simp only [store, loadSlots_saveSlots, getSlot_renameSlot h, Store.apply]
  · rfl

theorem Options.store_rename_none {options : Options} {slot : Int} {name : String}
    (h : renameSlot options.loadSlots slot name = none) :
    options.store.apply (.name slot name) = options.store := by
  apply Store.ext
  · exact renameSlot_eq_none h
  · rfl

end OnestiLock
