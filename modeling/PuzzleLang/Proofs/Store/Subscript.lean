import PuzzleLang.Proofs.Bindings
import PuzzleLang.Proofs.Run.Halting
import PuzzleLang.Proofs.Store.Holds
import PuzzleLang.Proofs.Store.Place
import PuzzleLang.Proofs.Tree.Print

/-!
# Subscripts

A subscript names a slot of an array or a map.  The slots are read and written like the fields of a
record: a slot that has been written has the new value, every other slot has its old one, and
writing back what has been read changes nothing.  A number and a text name the same slot of a map
just if the text is the number in base ten, and different numbers name different slots.
-/

namespace PuzzleLang

/-! ## Numbers as keys -/

theorem naturalText_injective : Function.Injective naturalText := by
  intro m n hsame
  rw [← digitsValue_naturalText m, hsame, digitsValue_naturalText]

theorem minus_notMem_naturalText (n : Nat) : '-' ∉ (naturalText n).toList := by
  intro hmember
  have hdigits := (Bool.and_eq_true_iff.mp (isNumber_naturalText n)).2
  exact absurd (List.all_eq_true.mp hdigits '-' hmember) (by decide)

theorem integerText_injective : Function.Injective integerText := by
  have hsign (m n : Nat) : naturalText m ≠ "-" ++ naturalText n := by
    intro hsame
    apply minus_notMem_naturalText m
    rw [hsame, String.toList_append]
    exact List.mem_append_left _ (by decide)
  intro m n hsame
  cases m with
  | ofNat m =>
    cases n with
    | ofNat n => exact congrArg Int.ofNat (naturalText_injective hsame)
    | negSucc n => exact absurd hsame (hsign m (n + 1))
  | negSucc m =>
    cases n with
    | ofNat n => exact absurd hsame.symm (hsign n (m + 1))
    | negSucc n =>
      have hdigits : naturalText (m + 1) = naturalText (n + 1) :=
        String.append_right_inj "-" |>.mp hsame
      exact congrArg Int.negSucc (Nat.succ_injective (naturalText_injective hdigits))

namespace Slot

/-- The place that a slot is part of. -/
def place : Slot → Place
  | item id _ => .array id
  | entry id _ => .map id

end Slot

namespace Store

/-- A value can be written under a key: under a number that is a place of an array, and under each
text and each number of a map. -/
def Writable (store : Store) (container key : Value) : Prop :=
  (∃ id index, container = .array id ∧ key = .number index ∧
    0 ≤ index ∧ index < (store.items id).size) ∨
  ∃ id, container = .map id ∧ ((∃ text, key = .string text) ∨ ∃ number, key = .number number)

/-- A key has a value already: it can be written, and a map binds it. -/
def Present (store : Store) (container key : Value) : Prop :=
  store.Writable container key ∧
    ∀ id text, container = .map id → key.mapKey? = some text →
      (store.entries id).binds text = true

/-- A value has been written under a key, and nothing else has changed.  The keys of a map keep
their places, and a new one comes last. -/
structure Overwrites (store after : Store) (container key value : Value) : Prop where
  value : after.load container key = .ok value
  values {other : Value} :
    store.slot container other ≠ store.slot container key →
      after.load container other = store.load container other
  size {id : ArrayId} :
    container = .array id → (after.items id).size = (store.items id).size
  names {id : MapId} {text : String} :
    container = .map id → key.mapKey? = some text →
      (after.entries id).names =
        if (store.entries id).binds text then (store.entries id).names
        else (store.entries id).names ++ [text]
  places {place : Place} : container.place? ≠ some place → after.at? place = store.at? place

/-- When two keys name the same slot of an array or of a map. -/
structure SlotsOfKeys (store : Store) : Prop where
  places (id : ArrayId) (index index' : Int) :
    store.slot (.array id) (.number index) = store.slot (.array id) (.number index') ↔
      index = index'
  numbers (id : MapId) (number number' : Int) :
    store.slot (.map id) (.number number) = store.slot (.map id) (.number number') ↔
      number = number'
  texts (id : MapId) (text text' : String) :
    store.slot (.map id) (.string text) = store.slot (.map id) (.string text') ↔ text = text'
  mixed (id : MapId) (number : Int) (text : String) :
    store.slot (.map id) (.number number) = store.slot (.map id) (.string text) ↔
      integerText number = text

/-- The value in a slot. -/
def read (store : Store) : Slot → Value
  | .item id index => (store.items id).getD index .nil
  | .entry id key => ((store.entries id).get? key).getD .nil

/-- A store has a slot.  The entries of a map are there before they are written. -/
def HasSlot (store : Store) : Slot → Prop
  | .item id index => index < (store.items id).size
  | .entry id _ => id.index < store.maps.size

variable {store : Store} {slot slot' : Slot} {container key value : Value} {cause : Cause}
  {id : ArrayId} {mapId : MapId} {text : String}

/-! ## Writing a slot -/

theorem items_setItem_self (id : ArrayId) (index : Nat) (value : Value) :
    (store.setItem id index value).items id = (store.items id).setIfInBounds index value := by
  simp only [items, setItem, Array.getD_eq_getD_getElem?, Array.getElem?_modify, if_pos]
  cases store.arrays[id.index]? with
  | none => rfl
  | some items => rfl

theorem entries_setEntry_self
    (hpresent : mapId.index < store.maps.size) (text : String) (value : Value) :
    (store.setEntry mapId text value).entries mapId = (store.entries mapId).put text value := by
  simp only [entries, setEntry, Array.getD_eq_getD_getElem?, Array.getElem?_modify, if_pos,
    Array.getElem?_eq_getElem hpresent]
  rfl

theorem at?_write_of_ne
    {place : Place} (hother : place ≠ slot.place) (store : Store) (value : Value) :
    (store.write slot value).at? place = store.at? place := by
  cases slot with
  | item id index => exact (at?_setItem id index value place).trans (if_neg hother)
  | entry id text => exact (at?_setEntry id text value place).trans (if_neg hother)

theorem items_write_of_ne (hother : .array id ≠ slot.place) :
    (store.write slot value).items id = store.items id := by
  have hsame := Option.map_injective (fun _ _ h => Cell.array.inj h)
    (at?_write_of_ne hother store value)
  rw [items, items, Array.getD_eq_getD_getElem?, Array.getD_eq_getD_getElem?, hsame]

theorem entries_write_of_ne (hother : .map mapId ≠ slot.place) :
    (store.write slot value).entries mapId = store.entries mapId := by
  have hsame := Option.map_injective (fun _ _ h => Cell.map.inj h)
    (at?_write_of_ne hother store value)
  rw [entries, entries, Array.getD_eq_getD_getElem?, Array.getD_eq_getD_getElem?, hsame]

theorem size_items_write (id : ArrayId) :
    ((store.write slot value).items id).size = (store.items id).size := by
  by_cases hsame : .array id = slot.place
  · cases slot with
    | item id' index =>
      cases hsame
      exact (congrArg Array.size (items_setItem_self id index value)).trans
        Array.size_setIfInBounds
    | entry id' text => cases hsame
  · rw [items_write_of_ne hsame]

theorem read_write_self (hhas : store.HasSlot slot) (value : Value) :
    (store.write slot value).read slot = value := by
  cases slot with
  | item id index =>
    have hinside : index < (store.items id).size := hhas
    rw [write, read, items_setItem_self, Array.getD_eq_getD_getElem?,
      Array.getElem?_setIfInBounds_self_of_lt hinside, Option.getD_some]
  | entry id text =>
    rw [write, read, entries_setEntry_self hhas, Bindings.get?_put_self, Option.getD_some]

theorem read_write_of_ne (hhas : store.HasSlot slot) (hother : slot' ≠ slot) (value : Value) :
    (store.write slot value).read slot' = store.read slot' := by
  by_cases hsame : slot'.place = slot.place
  · cases slot' with
    | item id index' =>
      cases slot with
      | item id' index =>
        cases hsame
        have hdifferent : index ≠ index' := fun h => hother (h ▸ rfl)
        rw [write, read, read, items_setItem_self, Array.getD_eq_getD_getElem?,
          Array.getD_eq_getD_getElem?, Array.getElem?_setIfInBounds_ne hdifferent]
      | entry id' text => cases hsame
    | entry id text' =>
      cases slot with
      | item id' index => cases hsame
      | entry id' text =>
        cases hsame
        have hdifferent : text ≠ text' := fun h => hother (h ▸ rfl)
        rw [write, read, read, entries_setEntry_self hhas, Bindings.get?_put_of_ne hdifferent]
  · cases slot' with
    | item id index' => rw [read, read, items_write_of_ne hsame]
    | entry id text' => rw [read, read, entries_write_of_ne hsame]

/-! ## The slot of a key -/

theorem index?_natCast {place size : Nat} (hinside : place < size) :
    index? place size = .ok place := by
  rw [index?, if_pos ⟨Int.natCast_nonneg place, Int.ofNat_lt.mpr hinside⟩, Int.toNat_natCast]

theorem index?_eq_error {index : Int} {size : Nat} (houtside : ¬ (0 ≤ index ∧ index < size)) :
    index? index size = .error (.indexOutOfRange index) :=
  if_neg houtside

/-- A key that can be written names a place of an array or the text of a map. -/
theorem Writable.cases (hwritable : store.Writable container key) :
    (∃ id, ∃ place : Nat, container = .array id ∧ key = .number place ∧
      place < (store.items id).size) ∨
    ∃ id text, container = .map id ∧ key.mapKey? = some text := by
  rcases hwritable with ⟨id, index, rfl, rfl, hleast, hinside⟩ | ⟨id, rfl, hkey⟩
  · obtain ⟨place, rfl⟩ := Int.eq_ofNat_of_zero_le hleast
    exact .inl ⟨id, place, rfl, rfl, Int.ofNat_lt.mp hinside⟩
  · rcases hkey with ⟨text, rfl⟩ | ⟨number, rfl⟩
    · exact .inr ⟨id, text, rfl, rfl⟩
    · exact .inr ⟨id, integerText number, rfl, rfl⟩

theorem Writable.exists_slot (hwritable : store.Writable container key) :
    ∃ slot, store.slot container key = .ok slot := by
  rcases hwritable.cases with ⟨id, place, rfl, rfl, hinside⟩ | ⟨id, text, rfl, hkey⟩
  · refine ⟨.item id place, ?_⟩
    rw [slot, index?_natCast hinside]
    rfl
  · refine ⟨.entry id text, ?_⟩
    rw [slot, hkey]

theorem exists_cause_of_not_writable (hrefused : ¬ store.Writable container key) :
    ∃ cause, store.slot container key = .error cause := by
  cases container with
  | array id =>
    cases key with
    | number index =>
      have houtside : ¬ (0 ≤ index ∧ index < (store.items id).size) :=
        fun hinside => hrefused (.inl ⟨id, index, rfl, rfl, hinside⟩)
      exact ⟨.indexOutOfRange index, by rw [slot, index?_eq_error houtside]; rfl⟩
    | _ => exact ⟨_, rfl⟩
  | map id =>
    cases key with
    | number number => exact absurd (.inr ⟨id, rfl, .inr ⟨number, rfl⟩⟩) hrefused
    | string text => exact absurd (.inr ⟨id, rfl, .inl ⟨text, rfl⟩⟩) hrefused
    | _ => exact ⟨_, rfl⟩
  | _ => exact ⟨_, rfl⟩

theorem writable_of_slot (hfound : store.slot container key = .ok slot) :
    store.Writable container key := by
  by_contra hrefused
  obtain ⟨cause, herror⟩ := exists_cause_of_not_writable hrefused
  rw [herror] at hfound
  cases hfound

/-- A slot that a key names is a slot of the container, and the key reads it. -/
theorem load_eq_of_slot (hfound : store.slot container key = .ok slot) :
    store.load container key = .ok (store.read slot) ∧ container.place? = some slot.place ∧
      (store.IsContainer container → store.HasSlot slot) := by
  rcases (writable_of_slot hfound).cases with ⟨id, place, rfl, rfl, hinside⟩ | ⟨id, text, rfl, hkey⟩
  · rw [Store.slot, index?_natCast hinside] at hfound
    cases hfound
    refine ⟨?_, rfl, fun _ => hinside⟩
    rw [load, index?_natCast hinside]
    rfl
  · rw [Store.slot, hkey] at hfound
    cases hfound
    refine ⟨by rw [load, hkey]; rfl, rfl, ?_⟩
    rintro (⟨index, ⟨⟩, _⟩ | ⟨index, ⟨⟩, hpresent⟩)
    exact hpresent

theorem slot_write (slot : Slot) (value container key : Value) :
    (store.write slot value).slot container key = store.slot container key := by
  cases container with
  | array id =>
    cases key with
    | number index => rw [Store.slot, Store.slot, size_items_write]
    | _ => rfl
  | _ => rfl

theorem load_write_of_slot_error
    (hrefused : store.slot container key = .error cause) (slot : Slot) (value : Value) :
    (store.write slot value).load container key = store.load container key := by
  cases container with
  | array id =>
    cases key with
    | number index =>
      have houtside : ¬ (0 ≤ index ∧ index < (store.items id).size) := by
        intro hinside
        obtain ⟨slot, hfound⟩ := Writable.exists_slot (.inl ⟨id, index, rfl, rfl, hinside⟩)
        rw [hrefused] at hfound
        cases hfound
      simp only [load, size_items_write, index?_eq_error houtside]
      rfl
    | _ => rfl
  | map id =>
    cases key with
    | number number => cases hrefused
    | string text => cases hrefused
    | _ => rfl
  | _ =>
    cases key with
    | _ => rfl

/-- A key that names another slot than the one that is written reads the same as before. -/
theorem load_write_of_ne
    (hhas : store.HasSlot slot) (hother : store.slot container key ≠ .ok slot) (value : Value) :
    (store.write slot value).load container key = store.load container key := by
  cases hfound : store.slot container key with
  | error cause => exact load_write_of_slot_error hfound slot value
  | ok slot' =>
    have hdifferent : slot' ≠ slot := fun hsame => hother (hfound.trans (congrArg Except.ok hsame))
    have hfoundAfter := (slot_write slot value container key).trans hfound
    rw [(load_eq_of_slot hfound).1, (load_eq_of_slot hfoundAfter).1,
      read_write_of_ne hhas hdifferent]

/-! ## Equal slots -/

theorem slot_entry_eq_iff
    {key' : Value} {text' : String}
    (hkey : key.mapKey? = some text) (hkey' : key'.mapKey? = some text') :
    store.slot (.map mapId) key = store.slot (.map mapId) key' ↔ text = text' := by
  rw [slot, slot, hkey, hkey']
  simp

theorem index?_inj {index index' : Int} {size : Nat} :
    index? index size = index? index' size ↔ index = index' := by
  refine ⟨fun hsame => ?_, congrArg (index? · size)⟩
  by_cases hinside : 0 ≤ index ∧ index < size
  · by_cases hinside' : 0 ≤ index' ∧ index' < size
    · rw [index?, index?, if_pos hinside, if_pos hinside', Except.ok.injEq] at hsame
      omega
    · rw [index?, index?, if_pos hinside, if_neg hinside'] at hsame
      cases hsame
  · by_cases hinside' : 0 ≤ index' ∧ index' < size
    · rw [index?, index?, if_neg hinside, if_pos hinside'] at hsame
      cases hsame
    · rw [index?, index?, if_neg hinside, if_neg hinside'] at hsame
      cases hsame
      rfl

theorem slot_item_eq_iff {index index' : Int} :
    store.slot (.array id) (.number index) = store.slot (.array id) (.number index') ↔
      index = index' := by
  refine ⟨fun hsame => ?_, fun hsame => by rw [hsame]⟩
  have hinner : (index? index (store.items id).size).map (Slot.item id) =
      (index? index' (store.items id).size).map (Slot.item id) := hsame
  have hplaces : index? index (store.items id).size = index? index' (store.items id).size := by
    cases hfound : index? index (store.items id).size <;>
      cases hfound' : index? index' (store.items id).size <;>
      rw [hfound, hfound'] at hinner <;> cases hinner <;> rfl
  exact index?_inj.mp hplaces

theorem slotsOfKeys (store : Store) :
    store.SlotsOfKeys where
  places _ _ _ := slot_item_eq_iff
  numbers _ _ _ := (slot_entry_eq_iff rfl rfl).trans integerText_injective.eq_iff
  texts _ _ _ := slot_entry_eq_iff rfl rfl
  mixed _ _ _ := slot_entry_eq_iff rfl rfl

/-! ## Writing back -/

theorem modify_eq_self
    {α : Type} {xs : Array α} {index : Nat} {f : α → α}
    (hfixed : ∀ x, xs[index]? = some x → f x = x) :
    xs.modify index f = xs := by
  refine Array.ext_getElem? fun index' => ?_
  rw [Array.getElem?_modify]
  split
  · next hsame =>
    subst hsame
    cases hfound : xs[index]? with
    | none => rfl
    | some x => rw [Option.map_some, hfixed x hfound]
  · rfl

theorem write_read
    (hhas : store.HasSlot slot)
    (hbound : ∀ id text, slot = .entry id text → (store.entries id).binds text = true) :
    store.write slot (store.read slot) = store := by
  cases slot with
  | item id index =>
    have hinside : index < (store.items id).size := hhas
    refine congrArg (Store.mk store.scopes · store.maps) (modify_eq_self fun items hfound => ?_)
    have hitems : store.items id = items := items_of_some hfound
    rw [read, hitems]
    rw [hitems] at hinside
    refine Array.ext_getElem? fun index' => ?_
    by_cases hsame : index = index'
    · rw [← hsame, Array.getElem?_setIfInBounds_self_of_lt hinside, Array.getD_eq_getD_getElem?,
        Array.getElem?_eq_getElem hinside, Option.getD_some]
    · rw [Array.getElem?_setIfInBounds_ne hsame]
  | entry id text =>
    refine congrArg (Store.mk store.scopes store.arrays) (modify_eq_self fun entries hfound => ?_)
    have hentries : store.entries id = entries := entries_of_some hfound
    have hisBound := hbound id text rfl
    rw [hentries] at hisBound
    obtain ⟨value, hvalue⟩ := Option.isSome_iff_exists.mp hisBound
    rw [read, hentries, hvalue, Option.getD_some]
    exact Bindings.put_of_get? hvalue

/-! ## Saving -/

theorem save_of_slot (hfound : store.slot container key = .ok slot) (value : Value) :
    store.save container key value = .ok (store.write slot value) := by
  rw [save, hfound]
  rfl

theorem overwrites_write
    (hcontainer : store.IsContainer container) (hfound : store.slot container key = .ok slot)
    (value : Value) :
    store.Overwrites (store.write slot value) container key value := by
  obtain ⟨-, hplace, hhasSlot⟩ := load_eq_of_slot hfound
  have hhas : store.HasSlot slot := hhasSlot hcontainer
  constructor
  case value =>
    rw [(load_eq_of_slot ((slot_write slot value container key).trans hfound)).1,
      read_write_self hhas]
  case values =>
    intro other hdifferent
    rw [hfound] at hdifferent
    exact load_write_of_ne hhas hdifferent value
  case size =>
    rintro id rfl
    exact size_items_write id
  case names =>
    rintro id text rfl hkey
    rw [Store.slot, hkey] at hfound
    cases hfound
    exact (congrArg Bindings.names (entries_setEntry_self hhas text value)).trans
      (Bindings.names_put _ text value)
  case places =>
    intro place hother
    rw [hplace] at hother
    exact at?_write_of_ne (fun hsame => hother (congrArg some hsame.symm)) store value

theorem exists_load_save_self
    (hcontainer : store.IsContainer container) (hpresent : store.Present container key) :
    ∃ old, store.load container key = .ok old ∧ store.save container key old = .ok store := by
  obtain ⟨slot, hfound⟩ := hpresent.1.exists_slot
  obtain ⟨hread, -, hhasSlot⟩ := load_eq_of_slot hfound
  refine ⟨store.read slot, hread, ?_⟩
  rw [save_of_slot hfound, write_read (hhasSlot hcontainer)]
  rintro id text rfl
  rcases hpresent.1.cases with ⟨id', place, rfl, rfl, hinside⟩ | ⟨id', text', rfl, hkey⟩
  · rw [slot, index?_natCast hinside] at hfound
    cases hfound
  · rw [slot, hkey] at hfound
    cases hfound
    exact hpresent.2 id text rfl hkey

end Store

/-! ## The laws of subscripts -/

namespace Run

variable {state : State} {container key : Value}

theorem save_of_slot
    {slot : Slot}
    (hfound : state.store.slot container key = .ok slot) (offset : Nat) (value : Value) :
    save offset container key value state =
      .ok () { state with store := state.store.write slot value } := by
  rw [save, bind_of_ok (get_of_state state), hfound]
  rfl

theorem save_of_slot_error
    {cause : Cause}
    (hrefused : state.store.slot container key = .error cause) (offset : Nat) (value : Value) :
    save offset container key value state = .error (.fault ⟨cause, some offset⟩) state := by
  rw [save, bind_of_ok (get_of_state state), hrefused]
  rfl

/-- A subscript of an array or a map can be written just under a place of the array, and under a
text or a number of the map.  Writing changes the slot of the key and nothing else; a write that
is refused changes nothing, and neither does writing back what is there. -/
theorem save_laws
    (state : State)
    {container : Value}
    (hcontainer : state.store.IsContainer container) (key value : Value) :
    (state.store.Writable container key →
      ∃ after, state.store.save container key value = .ok after ∧
        (∀ offset, save offset container key value state = .ok () { state with store := after }) ∧
        state.store.Overwrites after container key value) ∧
    (¬ state.store.Writable container key →
      ∃ cause, state.store.save container key value = .error cause ∧
        ∀ offset,
          save offset container key value state = .error (.fault ⟨cause, some offset⟩) state) ∧
    (state.store.Present container key →
      ∃ old, state.store.load container key = .ok old ∧
        state.store.save container key old = .ok state.store) ∧
    state.store.SlotsOfKeys := by
  refine ⟨fun hwritable => ?_, fun hrefused => ?_, Store.exists_load_save_self hcontainer,
    state.store.slotsOfKeys⟩
  · obtain ⟨slot, hfound⟩ := hwritable.exists_slot
    exact ⟨_, Store.save_of_slot hfound value, fun offset => save_of_slot hfound offset value,
      Store.overwrites_write hcontainer hfound value⟩
  · obtain ⟨cause, herror⟩ := Store.exists_cause_of_not_writable hrefused
    exact ⟨cause, by rw [Store.save, herror]; rfl,
      fun offset => save_of_slot_error herror offset value⟩

theorem save_laws_of_number_seven :
    let store : Store := ⟨#[], #[], #[[("7", .nil), ("x", .nil)]]⟩
    ∃ after, store.save (.map ⟨0⟩) (.number 7) (.number 1) = .ok after ∧
      store.Overwrites after (.map ⟨0⟩) (.number 7) (.number 1) ∧
      store.slot (.map ⟨0⟩) (.number 7) = store.slot (.map ⟨0⟩) (.string "7") := by
  intro store
  have hcontainer : store.IsContainer (.map ⟨0⟩) := .inr ⟨0, rfl, by decide⟩
  obtain ⟨hwritten, -, -, hslots⟩ :=
    save_laws ⟨store, "", #[], none, 0⟩ hcontainer (.number 7) (.number 1)
  obtain ⟨after, hsaved, -, hoverwrites⟩ := hwritten (.inr ⟨⟨0⟩, rfl, .inr ⟨7, rfl⟩⟩)
  exact ⟨after, hsaved, hoverwrites, (hslots.mixed ⟨0⟩ 7 "7").mpr (by decide)⟩

end Run

end PuzzleLang
