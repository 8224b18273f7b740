import LookmlProject.Decimal.Whole
import LookmlProject.Json.Basic
import LookmlProject.Proofs.Bytes
import LookmlProject.Value.Equal

/-! # Plain values and the strings in them

    A value is plain if it has no fractions, whole numbers that are short enough
    to be written out, and records with distinct keys (`Plain`).  Its strings are
    its texts and keys at every depth (`strings`).

    • A plain value equals itself (`same_self`).
    • Equal values have the same strings; one half of this is
      `strings_of_same`.
    • A value survives the way to JSON units and back
      (`Json.toValue_ofValue`), and so do the strings of what is read
      (`Json.strings_toValue`). -/

namespace LookmlProject.Value

mutual

/-- Null, truth values, whole numbers that are not too long, texts, lists and records with distinct
keys. -/
def Plain : Value → Prop
  | .null => True
  | .bool _ => True
  | .int n => (Nat.toDigits 10 n.natAbs).length ≤ Decimal.maxDigits
  | .float _ => False
  | .text _ => True
  | .list items => PlainItems items
  | .record fields => (fields.map Prod.fst).Nodup ∧ PlainFields fields

/-- Elements that are plain. -/
def PlainItems : List Value → Prop
  | [] => True
  | v :: rest => v.Plain ∧ PlainItems rest

/-- Entries that are plain. -/
def PlainFields : List (String × Value) → Prop
  | [] => True
  | (_, v) :: rest => v.Plain ∧ PlainFields rest

end

mutual

/-- The texts and keys in a value. -/
def strings : Value → List String
  | .text s => [s]
  | .list items => itemStrings items
  | .record fields => fieldStrings fields
  | _ => []

/-- The texts and keys in elements. -/
def itemStrings : List Value → List String
  | [] => []
  | v :: rest => v.strings ++ itemStrings rest

/-- The texts and keys in entries. -/
def fieldStrings : List (String × Value) → List String
  | [] => []
  | (k, v) :: rest => k :: (v.strings ++ fieldStrings rest)

end

/-! ## Equality -/

/-- What is found under a key is an entry. -/
theorem mem_of_get? {fields : Fields} {key : String} {v : Value}
    (h : Fields.get? fields key = some v) : (key, v) ∈ fields := by
  induction fields with
  | nil => exact nomatch h
  | cons e rest ih =>
      rw [Fields.get?] at h
      split at h
      · next hkey =>
          obtain rfl := hkey
          obtain rfl := Option.some.inj h
          exact List.mem_cons_self
      · exact List.mem_cons_of_mem _ (ih h)

/-- With distinct keys every entry is found under its key. -/
theorem get?_of_mem {fields : Fields} (hkeys : (fields.map Prod.fst).Nodup) {key : String}
    {v : Value} (h : (key, v) ∈ fields) : Fields.get? fields key = some v := by
  induction fields with
  | nil => exact nomatch h
  | cons e rest ih =>
      obtain ⟨hfresh, hrest⟩ := List.nodup_cons.mp hkeys
      rcases List.mem_cons.mp h with rfl | h
      · exact if_pos rfl
      · have hne : e.1 ≠ key := fun hkey =>
          hfresh (hkey ▸ List.mem_map_of_mem (f := Prod.fst) h)
        rw [Fields.get?, if_neg hne]
        exact ih hrest h

mutual

/-- A plain value equals itself. -/
theorem same_self : ∀ v : Value, v.Plain → same v v = true
  | .null, _ => rfl
  | .bool b, _ => show Quantity.same (.finite b.toNat 1) (.finite b.toNat 1) = true from
      beq_self_eq_true _
  | .int n, _ => show Quantity.same (.finite n 1) (.finite n 1) = true from beq_self_eq_true _
  | .float _, h => absurd h id
  | .text _, _ => by rw [same]; exact beq_self_eq_true _
  | .list items, h => by rw [same]; exact sameItems_self items h
  | .record fields, h => by
      -- The entries are gone through one by one, but looked up in the whole record.
      rw [same, beq_self_eq_true, Bool.true_and]
      exact sameFields_self fields h.2 fields fun e he => get?_of_mem h.1 he

/-- Plain elements equal themselves. -/
theorem sameItems_self : ∀ items : List Value, PlainItems items → sameItems items items = true
  | [], _ => rfl
  | v :: rest, h => by
      rw [sameItems, same_self v h.1, sameItems_self rest h.2]
      rfl

theorem sameFields_self : ∀ fields : List (String × Value), PlainFields fields →
    ∀ others : Fields, (∀ e ∈ fields, Fields.get? others e.1 = some e.2) →
      sameFields fields others = true
  | [], _, _, _ => rfl
  | (k, v) :: rest, h, others, hfound => by
      rw [sameFields, hfound (k, v) List.mem_cons_self,
        sameFields_self rest h.2 others fun e he => hfound e (List.mem_cons_of_mem _ he),
        Bool.and_true]
      exact same_self v h.1

end

/-- The strings of an entry are strings of the record. -/
theorem mem_fieldStrings {fields : Fields} {key : String} {v : Value} (h : (key, v) ∈ fields) :
    key ∈ fieldStrings fields ∧ ∀ s ∈ v.strings, s ∈ fieldStrings fields := by
  induction fields with
  | nil => exact nomatch h
  | cons e rest ih =>
      rcases List.mem_cons.mp h with rfl | h
      · rw [fieldStrings]
        exact ⟨List.mem_cons_self,
          fun s hs => List.mem_cons_of_mem _ (List.mem_append_left _ hs)⟩
      · obtain ⟨hkey, hv⟩ := ih h
        have hmore : ∀ s ∈ fieldStrings rest, s ∈ fieldStrings (e :: rest) := fun s hs =>
          List.mem_cons_of_mem _ (List.mem_append_right _ hs)
        exact ⟨hmore key hkey, fun s hs => hmore s (hv s hs)⟩

mutual

/-- Strings of a value are found in every value equal to it. -/
theorem strings_of_same : ∀ a b : Value, same a b = true → ∀ s ∈ a.strings, s ∈ b.strings
  | .text a, b, h, s, hs => by
      obtain rfl : s = a := List.mem_singleton.mp hs
      cases b with
      | text b =>
          obtain rfl : s = b := by
            rw [same] at h
            exact eq_of_beq h
          exact hs
      | _ => exact nomatch h
  | .list items, b, h, s, hs => by
      cases b with
      | list others =>
          rw [same] at h
          exact itemStrings_of_same items others h s hs
      | _ => exact nomatch h
  | .record fields, b, h, s, hs => by
      cases b with
      | record others =>
          rw [same, Bool.and_eq_true] at h
          exact fieldStrings_of_same fields others h.2 s hs
      | _ => exact nomatch h
  | .null, _, _, _, hs => nomatch hs
  | .bool _, _, _, _, hs => nomatch hs
  | .int _, _, _, _, hs => nomatch hs
  | .float _, _, _, _, hs => nomatch hs

theorem itemStrings_of_same : ∀ items others : List Value, sameItems items others = true →
    ∀ s ∈ itemStrings items, s ∈ itemStrings others
  | [], _, _, _, hs => nomatch hs
  | _ :: _, [], h, _, _ => nomatch h
  | v :: rest, w :: others, h, s, hs => by
      rw [sameItems, Bool.and_eq_true] at h
      rw [itemStrings, List.mem_append] at hs ⊢
      exact hs.imp (strings_of_same v w h.1 s) (itemStrings_of_same rest others h.2 s)

theorem fieldStrings_of_same : ∀ fields others : List (String × Value),
    sameFields fields others = true → ∀ s ∈ fieldStrings fields, s ∈ fieldStrings others
  | [], _, _, _, hs => nomatch hs
  | (k, v) :: rest, others, h, s, hs => by
      rw [sameFields, Bool.and_eq_true] at h
      obtain ⟨hentry, hrest⟩ := h
      -- The entry is looked up in the other record, and all that is found there counts.
      split at hentry
      · next w hfound =>
          obtain ⟨hkey, hw⟩ := mem_fieldStrings (mem_of_get? hfound)
          rw [fieldStrings, List.mem_cons, List.mem_append] at hs
          rcases hs with rfl | hs | hs
          · exact hkey
          · exact hw s (strings_of_same v w hentry s hs)
          · exact fieldStrings_of_same rest others hrest s hs
      · exact nomatch hentry

end

end LookmlProject.Value

/-! ## Values as JSON units -/

namespace LookmlProject.Json

mutual

/-- The texts and keys in a JSON value. -/
def strings : Json → List (List UInt16)
  | .text units => [units]
  | .list items => itemStrings items
  | .record fields => fieldStrings fields
  | _ => []

/-- The texts and keys in elements. -/
def itemStrings : List Json → List (List UInt16)
  | [] => []
  | v :: rest => v.strings ++ itemStrings rest

/-- The texts and keys in entries. -/
def fieldStrings : List (List UInt16 × Json) → List (List UInt16)
  | [] => []
  | (k, v) :: rest => k :: (v.strings ++ fieldStrings rest)

end

mutual

/-- A value comes back from JSON units. -/
theorem toValue_ofValue : ∀ v : Value, toValue (ofValue v) = v
  | .null => rfl
  | .bool _ => rfl
  | .int _ => rfl
  | .float _ => rfl
  | .text s => by rw [ofValue, toValue, Text.ofUnits_units, String.ofList_toList]
  | .list items => by rw [ofValue, toValue, toItems_ofItems]
  | .record fields => by rw [ofValue, toValue, toFields_ofFields]

theorem toItems_ofItems : ∀ items : List Value, toItems (ofItems items) = items
  | [] => rfl
  | v :: rest => by rw [ofItems, toItems, toValue_ofValue v, toItems_ofItems rest]

theorem toFields_ofFields : ∀ fields : List (String × Value), toFields (ofFields fields) = fields
  | [] => rfl
  | (k, v) :: rest => by
      rw [ofFields, toFields, toValue_ofValue v, toFields_ofFields rest, Text.ofUnits_units,
        String.ofList_toList]

end

mutual

/-- The strings of the value that JSON stands for are those of its units. -/
theorem strings_toValue : ∀ j : Json,
    (toValue j).strings = j.strings.map fun units => String.ofList (Text.ofUnits units)
  | .null => rfl
  | .bool _ => rfl
  | .int _ => rfl
  | .float _ => rfl
  | .text _ => rfl
  | .list items => itemStrings_toItems items
  | .record fields => fieldStrings_toFields fields

theorem itemStrings_toItems : ∀ items : List Json, Value.itemStrings (toItems items) =
    (itemStrings items).map fun units => String.ofList (Text.ofUnits units)
  | [] => rfl
  | v :: rest => by
      rw [toItems, Value.itemStrings, itemStrings, List.map_append, strings_toValue v,
        itemStrings_toItems rest]

theorem fieldStrings_toFields : ∀ fields : List (List UInt16 × Json),
    Value.fieldStrings (toFields fields) =
      (fieldStrings fields).map fun units => String.ofList (Text.ofUnits units)
  | [] => rfl
  | (k, v) :: rest => by
      rw [toFields, Value.fieldStrings, fieldStrings, List.map_cons, List.map_append,
        strings_toValue v, fieldStrings_toFields rest]

end

end LookmlProject.Json
