import Mathlib
import Wardrobe.Proofs.Form.KeyText
import Wardrobe.Record.SnapshotJson

/-!
# Reading written fields

What is read of a written value is the value itself, or nothing when a key in it has a plugin that
is refused.  Such a reading is the `Option.guard` of a property; lists, optional values and the
fields of an object (`fields?_ofFields`) pass it on from their parts.  The other direction says what
a value that was read looks like: numbers are within their bounds, keys are legible.
-/

namespace Wardrobe

/-- No bar stands in the plugin of a key. -/
def FormKey.unbarred (k : FormKey) : Bool :=
  !k.plugin.contains '|'

lemma FormKey.unbarred_iff {k : FormKey} : k.unbarred = true ↔ '|' ∉ k.plugin := by
  rw [unbarred, Bool.not_eq_true', List.contains_eq_mem, decide_eq_false_iff_not]

namespace Snapshot

variable {α β : Type} {read : Json → Option α} {write : α → Json} {p : α → Bool} {x : α}
  {xs : List α} {x? : Option α} {n : Nat} {i low high : Int} {k : FormKey}

/-- A guarded value goes on only under the guard. -/
lemma guard_bind (p : α → Bool) (x : α) (f : α → Option β) :
    (Option.guard p x).bind f = if p x then f x else none := by
  cases hp : p x <;> simp [Option.guard, hp]

/-! ## Lists and optional values -/

/-- A list is read back item by item. -/
lemma list?_ofList (h : ∀ x ∈ xs, read (write x) = Option.guard p x) :
    list? read (Json.ofList write xs) = Option.guard (·.all p) xs := by
  change (xs.map write).mapM read = Option.guard (·.all p) xs
  induction xs with
  | nil => rfl
  | cons x xs ih =>
    obtain ⟨hx, hxs⟩ := List.forall_mem_cons.mp h
    rw [List.map_cons, List.mapM_cons, hx, ih hxs]
    cases hp : p x <;> cases hps : xs.all p <;> simp [Option.guard, hp, hps]

/-- A list of which every item is read back is read back. -/
lemma list?_ofList_eq_some (h : ∀ x ∈ xs, read (write x) = some x) :
    list? read (Json.ofList write xs) = some xs := by
  have hall := list?_ofList (p := fun _ => true) fun x hx => (h x hx).trans (by simp [Option.guard])
  rw [hall]
  simp [Option.guard]

/-- An optional value is read back as the value is, unless that is written as nothing. -/
lemma optional?_ofOption (h : ∀ x ∈ x?, read (write x) = Option.guard p x)
    (hnull : ∀ x, write x ≠ .null) :
    optional? read (some (Json.ofOption write x?)) = Option.guard (·.all p) x? := by
  cases x? with
  | none => rfl
  | some x =>
    have hwrite : optional? read (some (write x)) = (read (write x)).map some := by
      rw [optional?]
      · exact hnull x
    rw [Json.ofOption, Option.elim_some, hwrite, h x rfl]
    cases hp : p x <;> simp [Option.guard, hp]

/-! ## Texts and numbers -/

/-- A text is read back. -/
lemma text?_ofText (t : Text) : text? (.ofText t) = some t := rfl

/-- An optional text is read back. -/
lemma optional?_text (t? : Option Text) :
    optional? text? (some (.ofOption .ofText t?)) = some t? := by
  cases t? <;> rfl

/-- A list of texts is read back. -/
lemma list?_text (ts : List Text) : list? text? (.ofList .ofText ts) = some ts :=
  list?_ofList_eq_some fun t _ => text?_ofText t

/-- A number is read back from its digits. -/
lemma natOfDigits_ofNat (n : Nat) : Text.natOfDigits (Text.ofNat n) = n := by
  rw [Text.natOfDigits, Text.ofNat, ← Nat.ofDigitChars_eq_foldl, Nat.ofDigitChars_ten_toDigits]

lemma all_isDigit_ofNat (n : Nat) : (Text.ofNat n).all Text.isDigit = true := by
  rw [List.all_eq_true]
  intro c hc
  have hdigit : c.isDigit = true := Nat.isDigit_of_mem_toDigits (by decide) (by decide) hc
  exact hdigit

/-- A whole number is read back. -/
lemma intOfText?_ofNat (n : Nat) : intOfText? (Text.ofNat n) = some (n : Int) := by
  have hhead : ∀ digits, Text.ofNat n ≠ '-' :: digits := by
    intro digits h
    have hall := all_isDigit_ofNat n
    rw [h, List.all_cons] at hall
    cases hall
  rw [intOfText?]
  · rw [if_pos (all_isDigit_ofNat n), natOfDigits_ofNat]
  · exact hhead

/-- A whole number with a sign is read back from what is written for it. -/
lemma intOfText?_neg (n : Nat) : intOfText? ('-' :: Text.ofNat (n + 1)) = some (.negSucc n) := by
  have hzero : Text.ofNat (n + 1) ≠ ['0'] := by
    intro h
    have hvalue := natOfDigits_ofNat (n + 1)
    rw [h] at hvalue
    cases hvalue
  rw [intOfText?, if_pos ⟨all_isDigit_ofNat _, hzero⟩, natOfDigits_ofNat]
  rfl

/-- A number within the bounds is read back. -/
lemma int?_ofInt (hlow : low ≤ i) (hhigh : i ≤ high) : int? low high (.ofInt i) = some i := by
  cases i with
  | ofNat n =>
    change (intOfText? (Text.ofNat n)).bind _ = _
    rw [intOfText?_ofNat, Option.bind_some]
    exact if_pos ⟨hlow, hhigh⟩
  | negSucc n =>
    change (intOfText? ('-' :: Text.ofNat (n + 1))).bind _ = _
    rw [intOfText?_neg, Option.bind_some, if_pos ⟨hlow, hhigh⟩]

/-- A natural number up to the bound is read back. -/
lemma nat?_ofNat {bound : Nat} (h : n ≤ bound) : nat? bound (.ofNat n) = some n := by
  have hint : int? 0 bound (.ofInt (n : Int)) = some (n : Int) :=
    int?_ofInt (Int.natCast_nonneg n) (Int.ofNat_le.mpr h)
  change (int? 0 bound (.ofInt (n : Int))).map Int.toNat = some n
  rw [hint, Option.map_some, Int.toNat_natCast]

/-! ## What was read -/

/-- Every item of a list that was read was read itself. -/
lemma exists_of_list? {value : Json} (h : list? read value = some xs) (hx : x ∈ xs) :
    ∃ item, read item = some x := by
  rw [list?.eq_def] at h
  split at h
  · next items =>
    induction items generalizing xs with
    | nil =>
      obtain rfl := Option.some.inj h
      cases hx
    | cons item items ih =>
      rw [List.mapM_cons] at h
      obtain ⟨y, hy, h⟩ := Option.bind_eq_some_iff.mp h
      obtain ⟨ys, hys, h⟩ := Option.bind_eq_some_iff.mp h
      obtain rfl := Option.some.inj h
      obtain rfl | hmem := List.mem_cons.mp hx
      · exact ⟨item, hy⟩
      · exact ih hmem hys
  · cases h

/-- An optional value that was read is missing, or it was read itself. -/
lemma exists_of_optional? {field : Option Json} (h : optional? read field = some x?)
    (hx : x ∈ x?) : ∃ value, read value = some x := by
  rw [optional?.eq_def] at h
  split at h
  · obtain rfl := Option.some.inj h
    cases hx
  · obtain rfl := Option.some.inj h
    cases hx
  · next value _ =>
    obtain ⟨y, hy, rfl⟩ := Option.map_eq_some_iff.mp h
    rw [Option.mem_some_iff] at hx
    exact ⟨value, hx ▸ hy⟩

/-- A field that was read has its default, or it was read itself. -/
lemma eq_or_exists_of_withDefault? {default : α} {field : Option Json}
    (h : withDefault? default read field = some x) :
    x = default ∨ ∃ value, read value = some x := by
  cases field with
  | none => exact Or.inl (Option.some.inj h).symm
  | some value => exact Or.inr ⟨value, h⟩

/-- Every item of a list that was read, if there is one, was read itself. -/
lemma exists_of_withDefault?_list? {field : Option Json}
    (h : withDefault? [] (list? read) field = some xs) (hx : x ∈ xs) :
    ∃ item, read item = some x := by
  obtain rfl | ⟨value, hvalue⟩ := eq_or_exists_of_withDefault? h
  · cases hx
  · exact exists_of_list? hvalue hx

/-- A number that was read is within the bounds. -/
lemma bounds_of_int? {value : Json} (h : int? low high value = some i) : low ≤ i ∧ i ≤ high := by
  rw [int?.eq_def] at h
  split at h
  · obtain ⟨n, -, h⟩ := Option.bind_eq_some_iff.mp h
    split_ifs at h with hbounds
    exact Option.some.inj h ▸ hbounds
  · cases h

/-- A natural number that was read is within the bound. -/
lemma le_of_nat? {bound : Nat} {value : Json} (h : nat? bound value = some n) : n ≤ bound := by
  obtain ⟨i, hi, rfl⟩ := Option.map_eq_some_iff.mp h
  exact Int.toNat_le.mpr (bounds_of_int? hi).2

/-- A key that was read from a field that must be there is legible. -/
lemma legible_of_required? {field : Option Json} (h : required? key? field = some k) :
    k.Legible := by
  obtain ⟨value, -, hkey⟩ := Option.bind_eq_some_iff.mp h
  obtain ⟨t, -, ht⟩ := Option.bind_eq_some_iff.mp hkey
  exact FormKey.legible_of_ofText? ht

/-! ## Fields -/

/-- Items that can all be read are read one by one. -/
lemma mapM_map_eq_some {γ : Type} {f : β → Option γ} {g : α → β} {result : α → γ}
    (h : ∀ x ∈ xs, f (g x) = some (result x)) : (xs.map g).mapM f = some (xs.map result) := by
  induction xs with
  | nil => rfl
  | cons x xs ih =>
    obtain ⟨hx, hxs⟩ := List.forall_mem_cons.mp h
    rw [List.map_cons, List.mapM_cons, hx, ih hxs]
    rfl

/-- Among distinct names each is found once. -/
lemma filter_name_eq {given : List (Text × Json)} (hnames : (given.map (·.1)).Nodup)
    {field : Text × Json} (hfield : field ∈ given) :
    given.filter (·.1 == field.1) = [field] := by
  induction given with
  | nil => cases hfield
  | cons first rest ih =>
    rw [List.map_cons, List.nodup_cons] at hnames
    obtain ⟨hfirst, hrest⟩ := hnames
    obtain rfl | hmem := List.mem_cons.mp hfield
    · have hothers : rest.filter (·.1 == field.1) = [] := List.filter_eq_nil_iff.mpr
        fun other hother hsame => hfirst (beq_iff_eq.mp hsame ▸ List.mem_map_of_mem hother)
      rw [List.filter_cons_of_pos (by simp), hothers]
    · rw [List.filter_cons_of_neg, ih hrest hmem]
      intro hsame
      exact hfirst (beq_iff_eq.mp hsame ▸ List.mem_map_of_mem hmem)

/-- The fields of a written object are found by their names. -/
lemma fields?_ofFields {fields : List (String × Json)}
    (h : (fields.map fun field => field.1.toList).Nodup) :
    fields? (fields.map fun field => field.1.toList) (.ofFields fields) =
      some (fields.map fun field => some field.2) := by
  have hgiven : (fields.map fun field => (some field.1.toList, field.2)).mapM
      (fun field : Option Text × Json => field.1.map (·, field.2)) =
      some (fields.map fun field => (field.1.toList, field.2)) :=
    mapM_map_eq_some fun _ _ => rfl
  change fieldsOfObject? _ (fields.map fun field => (some field.1.toList, field.2)) = _
  rw [fieldsOfObject?, hgiven]
  refine mapM_map_eq_some fun field hfield => ?_
  have hnames : ((fields.map fun field => (field.1.toList, field.2)).map (·.1)).Nodup := by
    rwa [List.map_map]
  rw [filter_name_eq hnames (List.mem_map_of_mem hfield)]

end Snapshot

end Wardrobe
