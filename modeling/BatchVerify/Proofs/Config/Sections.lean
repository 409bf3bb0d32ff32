import BatchVerify.Config.Schema
import BatchVerify.Proofs.Toml.UniqueKeys

/-!
# Sections of a document

A section writes values under names: a table under its keys, an array under the names of the fields
in their order. Reading a section succeeds just when every name is one of a field and every value
fits its field; each field then holds what is written for it, or its default, in whatever order the
entries stand (`Schema.Frame.fieldsOf_eq_ok_iff`).
-/

namespace BatchVerify.Schema

open Toml (Key Node Table)

/-- What a section writes: the entries of a table, or the items of an array, each under the name of
the field in its place. Items without a field do not count. -/
def pairs? (names : List String) : Node → Option (List (String × Node))
  | .table _ _ entries => some (entries.map fun entry => (entry.1.name, entry.2))
  | .array _ items | .tables items => some (names.zip items)
  | _ => none

/-- A field holds what the node that is written for it reads as, or its default where there is
none. -/
def Holds {α : Type} (reads : Node → α → Prop) (default : α) : Option Node → α → Prop
  | none, value => value = default
  | some node, value => reads node value

/-- A node is a section with fields of these names, and writes these pairs. -/
structure IsSection (names : List String) (node : Node) (pairs : List (String × Node)) : Prop where
  written : pairs? names node = some pairs
  declared : ∀ pair ∈ pairs, pair.1 ∈ names

/-! ## Faults and their places -/

variable {α : Type}

theorem under_eq_ok_iff {key : Key} {result : Result α} {value : α} :
    under key result = .ok value ↔ result = .ok value := by
  unfold under
  split <;> simp

theorem within_eq_ok_iff {node : Node} {result : Result α} {value : α} :
    within node result = .ok value ↔ result = .ok value := by
  unfold within
  split <;> simp

/-- A step of a reader that may refuse. -/
theorem bind_eq_ok_iff {β : Type} {result : Result α} {next : α → Result β} {b : β} :
    result >>= next = .ok b ↔ ∃ a, result = .ok a ∧ next a = .ok b := by
  cases result with
  | error fault => simp [bind, Except.bind]
  | ok a => simp [bind, Except.bind]

/-! ## Slots -/

/-- A field with what is known of it: a node that reads as a value has that value put in the
field's place. -/
structure Slot (α : Type) where
  field : Field α
  Value : Type
  reads : Node → Value → Prop
  get : α → Value
  put : α → Value → α
  get_put : ∀ built value, get (put built value) = value
  enter_eq_ok_iff : ∀ {built node built'}, node.Distinct →
    (field.enter built node = .ok built' ↔ ∃ value, reads node value ∧ built' = put built value)

/-- The name of a slot's field. -/
def Slot.name (slot : Slot α) : String := slot.field.name

/-- Slots that make up a record: each has its own name and its own place, and nothing else is in
the record. -/
structure Frame (slots : List (Slot α)) : Prop where
  names : (slots.map Slot.name).Nodup
  others : ∀ slot ∈ slots, ∀ other ∈ slots, other.name ≠ slot.name →
    ∀ built value, other.get (slot.put built value) = other.get built
  ext : ∀ {built built'}, (∀ slot ∈ slots, slot.get built' = slot.get built) → built' = built

variable {slots : List (Slot α)} {built built' : α}

namespace Frame

theorem eq_of_name_eq (hframe : Frame slots) {slot other : Slot α} (hslot : slot ∈ slots)
    (hother : other ∈ slots) (h : slot.name = other.name) : slot = other :=
  List.inj_on_of_nodup_map hframe.names hslot hother h

theorem find?_eq_some (hframe : Frame slots) {slot : Slot α} (hslot : slot ∈ slots) :
    (slots.map Slot.field).find? (fun field => field.name == slot.name) = some slot.field := by
  cases hfind : (slots.map Slot.field).find? (fun field => field.name == slot.name) with
  | none =>
    refine absurd ?_ (List.find?_eq_none.mp hfind _ (List.mem_map_of_mem hslot))
    exact beq_iff_eq.mpr rfl
  | some found =>
    obtain ⟨other, hother, rfl⟩ := List.mem_map.mp (List.mem_of_find?_eq_some hfind)
    have hname : other.name = slot.name := by simpa [Slot.name] using List.find?_some hfind
    rw [hframe.eq_of_name_eq hother hslot hname]

end Frame

/-! ## One pair after the other -/

/-- Pairs are entered one after the other, each into the slot of its name. -/
def Enters (slots : List (Slot α)) : List (String × Node) → α → α → Prop
  | [], built, built' => built' = built
  | (name, node) :: rest, built, built' =>
    ∃ slot ∈ slots, slot.name = name ∧
      ∃ value, slot.reads node value ∧ Enters slots rest (slot.put built value) built'

/-- The entries of a table are entered in their order. -/
theorem Frame.entries_eq_ok_iff (hframe : Frame slots) {found : List (Key × Node)}
    (hnodes : ∀ entry ∈ found, entry.2.Distinct) :
    entries (slots.map Slot.field) found built = .ok built' ↔
      Enters slots (found.map fun entry => (entry.1.name, entry.2)) built built' := by
  induction found generalizing built with
  | nil =>
    rw [entries, Except.ok.injEq, eq_comm]
    exact Iff.rfl
  | cons entry rest ih =>
    obtain ⟨key, node⟩ := entry
    obtain ⟨hnode, hrest⟩ := List.forall_mem_cons.mp hnodes
    rw [List.map_cons, entries, Enters]
    constructor
    · intro h
      split at h
      · cases h
      · next field hfind =>
        obtain ⟨slot, hslot, rfl⟩ := List.mem_map.mp (List.mem_of_find?_eq_some hfind)
        have hname : slot.name = key.name := by simpa [Slot.name] using List.find?_some hfind
        obtain ⟨next, henter, hlater⟩ := bind_eq_ok_iff.mp h
        obtain ⟨value, hreads, rfl⟩ := (slot.enter_eq_ok_iff hnode).mp (under_eq_ok_iff.mp henter)
        exact ⟨slot, hslot, hname, value, hreads, (ih hrest).mp hlater⟩
    · rintro ⟨slot, hslot, hname, value, hreads, hlater⟩
      rw [← hname, hframe.find?_eq_some hslot]
      refine bind_eq_ok_iff.mpr ⟨slot.put built value, under_eq_ok_iff.mpr ?_, (ih hrest).mpr hlater⟩
      exact (slot.enter_eq_ok_iff hnode).mpr ⟨value, hreads, rfl⟩

/-- The items of an array are entered as if each stood under the name of its field. -/
theorem Frame.items_eq_ok_iff (hframe : Frame slots) {nodes : List Node}
    (hnodes : ∀ node ∈ nodes, node.Distinct) :
    items (slots.map Slot.field) nodes built = .ok built' ↔
      Enters slots ((slots.map Slot.name).zip nodes) built built' := by
  suffices hlater : ∀ later : List (Slot α), later ⊆ slots →
      (items (later.map Slot.field) nodes built = .ok built' ↔
        Enters slots ((later.map Slot.name).zip nodes) built built') from
    hlater slots (List.Subset.refl _)
  intro later hsub
  induction later generalizing nodes built with
  | nil =>
    rw [List.map_nil, items, Except.ok.injEq, eq_comm]
    · exact Iff.rfl
    · simp
  | cons slot later ih =>
    obtain ⟨hslot, hrest'⟩ := List.cons_subset.mp hsub
    cases nodes with
    | nil =>
      rw [items, Except.ok.injEq, eq_comm]
      · exact Iff.rfl
      · simp
    | cons node rest =>
      obtain ⟨hnode, hrest⟩ := List.forall_mem_cons.mp hnodes
      rw [List.map_cons, List.map_cons, List.zip_cons_cons, items, Enters, bind_eq_ok_iff]
      constructor
      · rintro ⟨next, henter, hlater⟩
        obtain ⟨value, hreads, rfl⟩ := (slot.enter_eq_ok_iff hnode).mp henter
        exact ⟨slot, hslot, rfl, value, hreads, (ih hrest hrest').mp hlater⟩
      · rintro ⟨other, hother, hname, value, hreads, hlater⟩
        obtain rfl := hframe.eq_of_name_eq hother hslot hname
        refine ⟨other.put built value, ?_, (ih hrest hrest').mpr hlater⟩
        exact (other.enter_eq_ok_iff hnode).mpr ⟨value, hreads, rfl⟩

/-! ## Whole sections -/

/-- A node fits the slot of its name, and later pairs leave that slot alone, just when the slot ends
with what the node reads as and every other slot with what the later pairs write. -/
theorem Frame.holds_put_iff (hframe : Frame slots) {slot : Slot α} (hslot : slot ∈ slots)
    {node : Node} {rest : List (String × Node)} (hnone : rest.lookup slot.name = none) :
    (∃ value, slot.reads node value ∧ ∀ other ∈ slots,
        Holds other.reads (other.get (slot.put built value)) (rest.lookup other.name)
          (other.get built')) ↔
      ∀ other ∈ slots, Holds other.reads (other.get built)
        (List.lookup other.name ((slot.name, node) :: rest)) (other.get built') := by
  constructor
  · rintro ⟨value, hreads, hholds⟩ other hother
    have hother' := hholds other hother
    by_cases hname : other.name = slot.name
    · -- nothing after the pair changes the slot again
      obtain rfl := hframe.eq_of_name_eq hother hslot hname
      rw [hnone, Holds, other.get_put] at hother'
      rw [List.lookup_cons_self, Holds, hother']
      exact hreads
    · rw [hframe.others slot hslot other hother hname] at hother'
      rwa [List.lookup_cons, beq_eq_false_iff_ne.mpr hname]
  · intro hholds
    have hreads := hholds slot hslot
    rw [List.lookup_cons_self] at hreads
    refine ⟨slot.get built', hreads, fun other hother => ?_⟩
    have hother' := hholds other hother
    by_cases hname : other.name = slot.name
    · obtain rfl := hframe.eq_of_name_eq hother hslot hname
      rw [hnone, other.get_put]
      exact rfl
    · rw [List.lookup_cons, beq_eq_false_iff_ne.mpr hname] at hother'
      rwa [hframe.others slot hslot other hother hname]

/-- Pairs under distinct names all fit their slots just when each slot holds what is written for
it, or what it held before. -/
theorem Frame.enters_iff (hframe : Frame slots) {pairs : List (String × Node)}
    (hnames : (pairs.map Prod.fst).Nodup) :
    Enters slots pairs built built' ↔
      (∀ pair ∈ pairs, pair.1 ∈ slots.map Slot.name) ∧
        ∀ slot ∈ slots,
          Holds slot.reads (slot.get built) (pairs.lookup slot.name) (slot.get built') := by
  induction pairs generalizing built with
  | nil =>
    rw [Enters]
    constructor
    · rintro rfl
      exact ⟨fun _ h => absurd h List.not_mem_nil, fun slot _ => rfl⟩
    · rintro ⟨-, hholds⟩
      exact hframe.ext hholds
  | cons pair rest ih =>
    obtain ⟨name, node⟩ := pair
    rw [List.map_cons, List.nodup_cons] at hnames
    obtain ⟨hnew, hnames⟩ := hnames
    have hnone : rest.lookup name = none := by
      refine List.lookup_eq_none_iff.mpr fun pair hmem => ?_
      refine bne_iff_ne.mpr fun heq => hnew ?_
      exact List.mem_map.mpr ⟨pair, hmem, heq.symm⟩
    rw [Enters]
    constructor
    · rintro ⟨slot, hslot, rfl, value, hreads, hlater⟩
      obtain ⟨hdeclared, hholds⟩ := (ih hnames).mp hlater
      exact ⟨List.forall_mem_cons.mpr ⟨List.mem_map_of_mem hslot, hdeclared⟩,
        (hframe.holds_put_iff hslot hnone).mp ⟨value, hreads, hholds⟩⟩
    · rintro ⟨hdeclared, hholds⟩
      obtain ⟨hfirst, hrest⟩ := List.forall_mem_cons.mp hdeclared
      obtain ⟨slot, hslot, rfl⟩ := List.mem_map.mp hfirst
      obtain ⟨value, hreads, hholds⟩ := (hframe.holds_put_iff hslot hnone).mpr hholds
      exact ⟨slot, hslot, rfl, value, hreads, (ih hnames).mpr ⟨hrest, hholds⟩⟩

/-- The names under which a section writes are distinct. -/
theorem nodup_pairs {names : List String} {node : Node} {pairs : List (String × Node)}
    (hnames : names.Nodup) (hnode : node.Distinct) (h : pairs? names node = some pairs) :
    (pairs.map Prod.fst).Nodup := by
  have hzip (items : List Node) : ((names.zip items).map Prod.fst).Nodup := by
    rw [List.zip_eq_zip_take_min, List.map_fst_zip (by simp)]
    exact hnames.sublist (List.take_sublist _ _)
  cases hnode with
  | table span origin hkeys _ =>
    cases h
    rw [List.map_map]
    exact hkeys
  | array => cases h; exact hzip _
  | tables => cases h; exact hzip _
  | string | integer | float | boolean | moment => cases h

/-- Reading a section gives a record just when the section names only its fields and each field of
the record holds what is written for it, or its default. -/
theorem Frame.fieldsOf_eq_ok_iff (hframe : Frame slots) {title : String} {default settings : α}
    {node : Node} (hnode : node.Distinct) :
    fieldsOf title (slots.map Slot.field) default node = .ok settings ↔
      ∃ pairs, IsSection (slots.map Slot.name) node pairs ∧
        ∀ slot ∈ slots,
          Holds slot.reads (slot.get default) (pairs.lookup slot.name) (slot.get settings) := by
  have hsection (pairs : List (String × Node))
      (hwritten : pairs? (slots.map Slot.name) node = some pairs) :
      Enters slots pairs default settings ↔
        ∃ pairs, IsSection (slots.map Slot.name) node pairs ∧
          ∀ slot ∈ slots,
            Holds slot.reads (slot.get default) (pairs.lookup slot.name) (slot.get settings) := by
    rw [hframe.enters_iff (nodup_pairs hframe.names hnode hwritten)]
    constructor
    · rintro ⟨hdeclared, hholds⟩
      exact ⟨pairs, ⟨hwritten, hdeclared⟩, hholds⟩
    · rintro ⟨pairs', ⟨hwritten', hdeclared⟩, hholds⟩
      obtain rfl := Option.some.inj (hwritten.symm.trans hwritten')
      exact ⟨hdeclared, hholds⟩
  unfold fieldsOf
  rw [within_eq_ok_iff]
  cases hnode with
  | table span origin hkeys hnodes =>
    rw [hframe.entries_eq_ok_iff hnodes]
    exact hsection _ rfl
  | array span hnodes =>
    rw [hframe.items_eq_ok_iff hnodes]
    exact hsection _ rfl
  | tables hnodes =>
    rw [hframe.items_eq_ok_iff hnodes]
    exact hsection _ rfl
  | string | integer | float | boolean | moment =>
    simp only [refuse, reduceCtorEq, false_iff]
    rintro ⟨pairs, ⟨hwritten, -⟩, -⟩
    cases hwritten

end BatchVerify.Schema
