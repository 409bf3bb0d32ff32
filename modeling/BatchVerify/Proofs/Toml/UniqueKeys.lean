import BatchVerify.Toml.Document
import Mathlib.Data.List.Nodup

/-!
# Keys of a document

No table of a well-formed document names a key twice, at whatever depth and in whatever way the table
was written (`Toml.parse?_distinct`). Every change of a table that building a document makes keeps it
so (`Table.distinct_put`, `Table.distinct_descend?`), and values are read with distinct keys to begin
with (`distinct_value`).
-/

namespace BatchVerify.Toml

/-- No table in a node names a key twice. -/
inductive Node.Distinct : Node → Prop
  | string (span : Span) (text : String) : Distinct (.string span text)
  | integer (span : Span) (value : Int) : Distinct (.integer span value)
  | float (span : Span) (value : Binary64) : Distinct (.float span value)
  | boolean (span : Span) (value : Bool) : Distinct (.boolean span value)
  | moment (span : Span) : Distinct (.moment span)
  | array (span : Span) {items : List Node} (nodes : ∀ item ∈ items, Distinct item) :
    Distinct (.array span items)
  | table (span : Option Span) (origin : Origin) {entries : List (Key × Node)}
    (names : (entries.map fun entry => entry.1.name).Nodup)
    (nodes : ∀ entry ∈ entries, Distinct entry.2) : Distinct (.table span origin entries)
  | tables {elements : List Node} (nodes : ∀ element ∈ elements, Distinct element) :
    Distinct (.tables elements)

/-! ## Tables -/

namespace Table

/-- Neither a table nor anything in it names a key twice. -/
structure Distinct (t : Table) : Prop where
  names : (t.entries.map fun entry => entry.1.name).Nodup
  nodes : ∀ entry ∈ t.entries, entry.2.Distinct

variable {t : Table} {key : Key} {node : Node}

theorem Distinct.toNode (h : t.Distinct) : t.toNode.Distinct :=
  .table t.span t.origin h.names h.nodes

theorem distinct_of_node {span : Option Span} {origin : Origin} {entries : List (Key × Node)}
    (h : (Node.table span origin entries).Distinct) : Distinct ⟨span, origin, entries⟩ := by
  cases h with
  | table _ _ names nodes => exact ⟨names, nodes⟩

theorem distinct_empty (span : Option Span) (origin : Origin) : Distinct ⟨span, origin, []⟩ :=
  ⟨List.nodup_nil, fun _ h => absurd h List.not_mem_nil⟩

theorem distinct_get? (h : t.Distinct) {name : String} (hget : t.get? name = some node) :
    node.Distinct := by
  obtain ⟨entry, hfind, rfl⟩ := Option.map_eq_some_iff.mp hget
  exact h.nodes entry (List.mem_of_find?_eq_some hfind)

theorem name_not_mem_of_get? (h : t.get? key.name = none) :
    key.name ∉ t.entries.map fun entry => entry.1.name := by
  have hnone := List.find?_eq_none.mp (Option.map_eq_none_iff.mp h)
  intro hmem
  obtain ⟨entry, hentry, hname⟩ := List.mem_map.mp hmem
  exact hnone entry hentry (beq_iff_eq.mpr hname)

/-- A node that is put under a key takes the place of what was there, or a new one. -/
theorem distinct_put (h : t.Distinct) (hnode : node.Distinct) : (t.put key node).Distinct := by
  unfold put
  split_ifs with hthere
  · refine ⟨?_, fun entry hmem => ?_⟩
    · have hnames : (t.entries.map fun entry =>
          if entry.1.name == key.name then (entry.1, node) else entry).map (fun entry => entry.1.name) =
          t.entries.map fun entry => entry.1.name := by
        rw [List.map_map]
        refine List.map_congr_left fun entry _ => ?_
        rw [Function.comp_apply]
        split_ifs <;> rfl
      rw [hnames]
      exact h.names
    · obtain ⟨old, hold, rfl⟩ := List.mem_map.mp hmem
      split_ifs
      · exact hnode
      · exact h.nodes old hold
  · have hnew := name_not_mem_of_get? (Option.not_isSome_iff_eq_none.mp hthere)
    refine ⟨?_, fun entry hmem => ?_⟩
    · rw [List.map_append, List.nodup_append]
      refine ⟨h.names, List.nodup_singleton _, ?_⟩
      rintro name hmem other hother rfl
      obtain rfl := List.mem_singleton.mp hother
      exact hnew hmem
    · rcases List.mem_append.mp hmem with hmem | hmem
      · exact h.nodes entry hmem
      · obtain rfl := List.mem_singleton.mp hmem
        exact hnode

theorem distinct_erase (h : t.Distinct) (name : String) : (t.erase name).Distinct where
  names := h.names.sublist (List.filter_sublist.map _)
  nodes entry hmem := h.nodes entry (List.mem_of_mem_filter hmem)

/-- A change at the end of a path keeps what it keeps there, and what it hands out is as it is handed
out there. -/
theorem distinct_descend? {β : Type} {P : β → Prop} {way : Way} {path : List Key}
    {change : Table → Option (β × Table)} {b : β} {after : Table}
    (hchange : ∀ {inner b after}, Distinct inner → change inner = some (b, after) →
      P b ∧ after.Distinct)
    (ht : t.Distinct) (h : descend? way path change t = some (b, after)) : P b ∧ after.Distinct := by
  induction path generalizing t after with
  | nil => exact hchange ht h
  | cons key path ih =>
    simp only [descend?] at h
    split at h
    · -- a table that is first named on the way
      obtain ⟨⟨c, child⟩, hchild, heq⟩ := Option.bind_eq_some_iff.mp h
      cases heq
      obtain ⟨hb, hdistinct⟩ := ih (distinct_empty none _) hchild
      exact ⟨hb, distinct_put ht hdistinct.toNode⟩
    · next span origin entries hget =>
      split_ifs at h
      obtain ⟨⟨c, child⟩, hchild, heq⟩ := Option.bind_eq_some_iff.mp h
      cases heq
      obtain ⟨hb, hdistinct⟩ := ih (distinct_of_node (distinct_get? ht hget)) hchild
      exact ⟨hb, distinct_put ht hdistinct.toNode⟩
    · next elements hget =>
      have helements : ∀ element ∈ elements, element.Distinct := by
        cases distinct_get? ht hget with
        | tables nodes => exact nodes
      split at h
      · next span origin entries hlast =>
        obtain ⟨⟨c, child⟩, hchild, heq⟩ := Option.bind_eq_some_iff.mp h
        cases heq
        obtain ⟨hb, hdistinct⟩ :=
          ih (distinct_of_node (helements _ (List.mem_of_getLast? hlast))) hchild
        refine ⟨hb, distinct_put ht (.tables fun element hmem => ?_)⟩
        rcases List.mem_append.mp hmem with hmem | hmem
        · exact helements element (List.dropLast_subset _ hmem)
        · obtain rfl := List.mem_singleton.mp hmem
          exact hdistinct.toNode
      · cases h
    · cases h

theorem distinct_assign? {path : List Key} {after : Table} (ht : t.Distinct) (hnode : node.Distinct)
    (h : t.assign? path key node = some after) : after.Distinct := by
  obtain ⟨⟨b, assigned⟩, hdescend, rfl⟩ := Option.map_eq_some_iff.mp h
  refine (distinct_descend? (P := fun _ => True) ?_ ht hdescend).2
  intro inner b after hinner hchange
  split_ifs at hchange
  cases hchange
  exact ⟨trivial, distinct_put hinner hnode⟩

end Table

/-! ## Reading values -/

namespace Reader

variable {α β : Type} {P : α → Prop} {Q : β → Prop} {item : Reader α}

/-- Whatever a reader reads, wherever it starts, satisfies `P`. -/
def Gives (item : Reader α) (P : α → Prop) : Prop :=
  ∀ cursor a after, item cursor = some (a, after) → P a

theorem Gives.of_all (h : ∀ a, P a) (item : Reader α) : item.Gives P := fun _ a _ _ => h a

theorem Gives.pure {a : α} (h : P a) : Gives (pure a : Reader α) P := by
  intro cursor b after hread
  cases hread
  exact h

theorem Gives.bind {next : α → Reader β} (h : item.Gives P) (hnext : ∀ {a}, P a → (next a).Gives Q) :
    (item >>= next).Gives Q := by
  intro cursor b after hread
  obtain ⟨⟨a, middle⟩, hitem, hrest⟩ := Option.bind_eq_some_iff.mp hread
  exact hnext (h _ _ _ hitem) _ _ _ hrest

/-- What comes after steps that are of no account. -/
theorem Gives.after {next : α → Reader β} (hnext : ∀ a, (next a).Gives Q) :
    (item >>= next).Gives Q :=
  (Gives.of_all (P := fun _ => True) (fun _ => trivial) item).bind fun _ => hnext _

theorem Gives.orElse {other : Reader α} (h : item.Gives P) (hother : other.Gives P) :
    (item <|> other).Gives P := by
  intro cursor a after hread
  change (item cursor <|> other cursor) = _ at hread
  cases hitem : item cursor with
  | none =>
    rw [hitem] at hread
    exact hother _ _ _ hread
  | some result =>
    rw [hitem] at hread
    cases hread
    exact h _ _ _ hitem

theorem Gives.optional (h : item.Gives P) :
    (optional item).Gives fun found => ∀ a, found = some a → P a := by
  refine Gives.orElse ?_ (Gives.pure fun a ha => by cases ha)
  refine h.bind fun {a} ha => Gives.pure ?_
  rintro _ ⟨⟩
  exact ha

theorem Gives.guarded {check : α → Option β} (h : item.Gives P)
    (hcheck : ∀ {a b}, P a → check a = some b → Q b) : (guarded item check).Gives Q := by
  refine h.bind fun {a} ha => ?_
  cases hb : check a with
  | none =>
    intro cursor b after hread
    cases hread
  | some b => exact Gives.pure (hcheck ha hb)

theorem Gives.spanned (h : item.Gives P) : (spanned item).Gives fun found => P found.1 := by
  intro cursor found after hread
  obtain ⟨⟨a, rest⟩, hitem, heq⟩ := Option.map_eq_some_iff.mp hread
  cases heq
  exact h _ _ _ hitem

theorem Gives.many (h : item.Gives P) : (many item).Gives fun found => ∀ a ∈ found, P a := by
  have hbound (n : Nat) : (manyUpTo item n).Gives fun found => ∀ a ∈ found, P a := by
    induction n with
    | zero => exact Gives.pure fun a ha => absurd ha List.not_mem_nil
    | succ n ih =>
      refine Gives.orElse ?_ (Gives.pure fun a ha => absurd ha List.not_mem_nil)
      refine h.bind fun {first} hfirst => ih.bind fun {rest} hrest => Gives.pure ?_
      exact List.forall_mem_cons.mpr ⟨hfirst, hrest⟩
  intro cursor found after hread
  exact hbound _ _ _ _ hread

theorem Gives.separated (h : item.Gives P) (separator : Reader β) :
    (separated item separator).Gives fun found => ∀ a ∈ found, P a := by
  refine h.bind fun {first} hfirst => ?_
  refine (Gives.many (Gives.after fun _ => h)).bind fun {rest} hrest => Gives.pure ?_
  exact List.forall_mem_cons.mpr ⟨hfirst, hrest⟩

end Reader

open Reader Lexeme

theorem distinct_scalar : scalar.Gives Node.Distinct := by
  refine Gives.orElse (Gives.after fun found => Gives.pure (.string found.2 found.1)) ?_
  refine Gives.orElse (Gives.after fun found => Gives.pure (.moment found.2)) ?_
  refine Gives.orElse (Gives.after fun found => Gives.pure (.float found.2 found.1)) ?_
  refine Gives.orElse (Gives.after fun found => Gives.pure (.integer found.2 found.1)) ?_
  refine Gives.orElse (Gives.after fun found => Gives.pure (.boolean found.2 true)) ?_
  exact Gives.after fun found => Gives.pure (.boolean found.2 false)

theorem distinct_array {value : Reader Node} (h : value.Gives Node.Distinct) :
    (array value).Gives Node.Distinct := by
  have hitem : Reader.Gives (do gap; let item ← value; gap; return item) Node.Distinct :=
    Gives.after fun _ => h.bind fun hnode => Gives.after fun _ => Gives.pure hnode
  have hitems : Reader.Gives
      (do
        let items ← separated (do gap; let item ← value; gap; return item) (char ',')
        let _ ← optional (char ',')
        return items)
      fun items => ∀ item ∈ items, item.Distinct :=
    (hitem.separated _).bind fun hall => Gives.after fun _ => Gives.pure hall
  refine (Gives.spanned (P := fun items => ∀ item ∈ items, Node.Distinct item) ?_).bind
    fun {found} hfound => Gives.pure (.array found.2 hfound)
  refine Gives.after fun _ => hitems.optional.bind fun {items} hall => ?_
  refine Gives.after fun _ => Gives.after fun _ => Gives.pure ?_
  cases items with
  | none => exact fun item hmem => absurd hmem List.not_mem_nil
  | some items => exact hall items rfl

theorem distinct_assignment {value : Reader Node} (h : value.Gives Node.Distinct) :
    (assignment value).Gives fun entry => entry.2.2.Distinct := by
  refine Gives.guarded (P := fun read : List Key × Node => read.2.Distinct) ?_ ?_
  · refine Gives.after fun keys => Gives.after fun _ => Gives.after fun _ => ?_
    exact h.bind fun hnode => Gives.pure hnode
  · rintro ⟨keys, node⟩ entry hnode hcheck
    obtain ⟨key, -, rfl⟩ := Option.map_eq_some_iff.mp hcheck
    exact hnode

/-- The entries of a table between braces are entered one by one. -/
theorem distinct_tableOf? {span : Option Span} {entries : List (List Key × Key × Node)} {t : Table}
    (hentries : ∀ entry ∈ entries, entry.2.2.Distinct) (h : tableOf? span entries = some t) :
    t.Distinct := by
  have hstart : Table.Distinct ⟨span, .braced, []⟩ := Table.distinct_empty span .braced
  unfold tableOf? at h
  generalize (⟨span, .braced, []⟩ : Table) = start at h hstart
  induction entries generalizing start with
  | nil =>
    cases h
    exact hstart
  | cons entry entries ih =>
    obtain ⟨hentry, hrest⟩ := List.forall_mem_cons.mp hentries
    rw [List.foldlM_cons] at h
    obtain ⟨assigned, hassign, hlater⟩ := Option.bind_eq_some_iff.mp h
    exact ih hrest assigned hlater (Table.distinct_assign? hstart hentry hassign)

theorem distinct_inlineTable {value : Reader Node} (h : value.Gives Node.Distinct) :
    (inlineTable value).Gives Node.Distinct := by
  have hentry : Reader.Gives (do let entry ← assignment value; spaces; return entry)
      fun entry => entry.2.2.Distinct :=
    (distinct_assignment h).bind fun hnode => Gives.after fun _ => Gives.pure hnode
  refine Gives.guarded (Gives.spanned (P := fun entries : List (List Key × Key × Node) =>
    ∀ entry ∈ entries, entry.2.2.Distinct) ?_) ?_
  · refine Gives.after fun _ => (hentry.separated _).optional.bind fun {entries} hall => ?_
    refine Gives.after fun _ => Gives.after fun _ => Gives.pure ?_
    cases entries with
    | none => exact fun entry hmem => absurd hmem List.not_mem_nil
    | some entries => exact hall entries rfl
  · rintro ⟨entries, span⟩ node hall hcheck
    obtain ⟨t, htable, rfl⟩ := Option.map_eq_some_iff.mp hcheck
    exact (distinct_tableOf? hall htable).toNode

theorem distinct_value : value.Gives Node.Distinct := by
  have hdepth (depth : Nat) : (valueTo depth).Gives Node.Distinct := by
    induction depth with
    | zero => exact distinct_scalar
    | succ depth ih =>
      exact distinct_scalar.orElse ((distinct_array ih).orElse (distinct_inlineTable ih))
  exact hdepth maxDepth

/-! ## Building documents -/

/-- A statement that assigns assigns a value without a key named twice. -/
def Statement.Distinct : Statement → Prop
  | .table .. | .element .. => True
  | .assign _ _ value => value.Distinct

theorem distinct_statements {text : List Char} {statements : List Statement}
    (h : Statement.ofText? text = some statements) :
    ∀ statement ∈ statements, statement.Distinct := by
  have hheader : Statement.elementHeader.Gives Statement.Distinct :=
    Gives.after fun _ => Gives.after fun _ => Gives.pure trivial
  have hheader' : Statement.tableHeader.Gives Statement.Distinct :=
    Gives.after fun _ => Gives.after fun _ => Gives.pure trivial
  have hassignment : Statement.assignmentLine.Gives Statement.Distinct :=
    (distinct_assignment distinct_value).bind fun hnode => Gives.after fun _ => Gives.pure hnode
  have hline : Reader.Gives (some <$> (Statement.elementHeader <|> Statement.tableHeader <|>
      Statement.assignmentLine)) fun found => ∀ statement, found = some statement → statement.Distinct := by
    refine (hheader.orElse (hheader'.orElse hassignment)).bind fun hstatement => Gives.pure ?_
    rintro _ ⟨⟩
    exact hstatement
  have hempty : Reader.Gives (do Statement.emptyLine; return none) fun found : Option Statement =>
      ∀ statement, found = some statement → statement.Distinct :=
    Gives.after fun _ => Gives.pure fun statement hnone => by cases hnone
  have hall : Statement.all.Gives fun found => ∀ statement ∈ found, statement.Distinct := by
    refine Gives.after fun _ => Gives.after fun _ => ?_
    refine Gives.bind (Gives.many ((hempty.orElse hline).bind fun hfound =>
      Gives.after fun _ => Gives.pure hfound)) fun {found} hfound => Gives.pure ?_
    intro statement hmem
    obtain ⟨line, hline, heq⟩ := List.mem_filterMap.mp hmem
    exact hfound line hline statement heq
  obtain ⟨⟨found, after⟩, hread, rfl⟩ := Option.map_eq_some_iff.mp h
  obtain ⟨⟨statements, middle⟩, hstatements, hend⟩ := Option.bind_eq_some_iff.mp hread
  obtain ⟨⟨_, last⟩, -, heq⟩ := Option.bind_eq_some_iff.mp hend
  cases heq
  exact hall _ _ _ hstatements

namespace Builder

/-- Neither the open table nor the closed ones name a key twice. -/
structure Distinct (b : Builder) : Prop where
  root : b.root.Distinct
  current : b.current.Distinct

variable {b after : Builder}

theorem Distinct.closed? {root : Table} (h : b.Distinct) (hclosed : b.closed? = some root) :
    root.Distinct := by
  unfold Builder.closed? at hclosed
  split at hclosed
  · cases hclosed
    exact h.current
  · obtain ⟨⟨_, closed⟩, hdescend, rfl⟩ := Option.map_eq_some_iff.mp hclosed
    refine (Table.distinct_descend? (P := fun _ => True) ?_ h.root hdescend).2
    intro inner _ entered hinner hchange
    refine ⟨trivial, ?_⟩
    split at hchange
    · cases hchange
      refine Table.distinct_put hinner ?_
      split_ifs
      · refine .tables fun element hmem => ?_
        obtain rfl := List.mem_singleton.mp hmem
        exact h.current.toNode
      · exact h.current.toNode
    · next elements hget =>
      split_ifs at hchange
      cases hchange
      refine Table.distinct_put hinner (.tables fun element hmem => ?_)
      rcases List.mem_append.mp hmem with hmem | hmem
      · cases Table.distinct_get? hinner hget with
        | tables nodes => exact nodes element hmem
      · obtain rfl := List.mem_singleton.mp hmem
        exact h.current.toNode
    · cases hchange

theorem Distinct.openTable? {keys : List Key} {span : Span} (h : b.Distinct)
    (hopen : b.openTable? keys span = some after) : after.Distinct := by
  obtain ⟨root, hclosed, hopen⟩ := Option.bind_eq_some_iff.mp hopen
  obtain ⟨key, -, hopen⟩ := Option.bind_eq_some_iff.mp hopen
  obtain ⟨⟨entries, root'⟩, hdescend, heq⟩ := Option.bind_eq_some_iff.mp hopen
  cases heq
  -- what the table already has is what it had where it was only named
  have hentries := Table.distinct_descend?
    (P := fun entries => Table.Distinct ⟨some span, .explicit, entries⟩) ?_ (h.closed? hclosed) hdescend
  · exact ⟨hentries.2, hentries.1⟩
  · intro inner entries' after hinner hchange
    split at hchange
    · cases hchange
      exact ⟨Table.distinct_empty _ _, hinner⟩
    · next hget =>
      cases hchange
      have hnode := Table.distinct_of_node (Table.distinct_get? hinner hget)
      exact ⟨⟨hnode.names, hnode.nodes⟩, Table.distinct_erase hinner _⟩
    · cases hchange

theorem Distinct.openElement? {keys : List Key} {span : Span} (h : b.Distinct)
    (hopen : b.openElement? keys span = some after) : after.Distinct := by
  obtain ⟨root, hclosed, hopen⟩ := Option.bind_eq_some_iff.mp hopen
  obtain ⟨key, -, hopen⟩ := Option.bind_eq_some_iff.mp hopen
  obtain ⟨⟨_, root'⟩, hdescend, heq⟩ := Option.bind_eq_some_iff.mp hopen
  cases heq
  refine ⟨?_, Table.distinct_empty _ _⟩
  refine (Table.distinct_descend? (P := fun _ => True) ?_ (h.closed? hclosed) hdescend).2
  intro inner _ entered hinner hchange
  refine ⟨trivial, ?_⟩
  split at hchange
  · cases hchange
    exact Table.distinct_put hinner (.tables fun _ hmem => absurd hmem List.not_mem_nil)
  · cases hchange
    exact hinner
  · cases hchange

theorem Distinct.assign? {path : List Key} {key : Key} {value : Node} (h : b.Distinct)
    (hvalue : value.Distinct) (hassign : b.assign? path key value = some after) :
    after.Distinct := by
  obtain ⟨current, hcurrent, heq⟩ := Option.bind_eq_some_iff.mp hassign
  cases heq
  refine ⟨h.root, Table.distinct_assign? ?_ hvalue hcurrent⟩
  exact ⟨h.current.names, h.current.nodes⟩

theorem Distinct.step? {statement : Statement} (h : b.Distinct) (hstatement : statement.Distinct)
    (hstep : b.step? statement = some after) : after.Distinct := by
  cases statement with
  | table keys span => exact h.openTable? hstep
  | element keys span => exact h.openElement? hstep
  | assign path key value => exact h.assign? hstatement hstep

end Builder

theorem distinct_documentOf? {statements : List Statement} {document : Node}
    (hstatements : ∀ statement ∈ statements, statement.Distinct)
    (h : documentOf? statements = some document) :
    ∃ root : Table, document = root.toNode ∧ root.Distinct := by
  obtain ⟨built, hbuilt, hclose⟩ := Option.bind_eq_some_iff.mp h
  obtain ⟨root, hclosed, heq⟩ := Option.bind_eq_some_iff.mp hclose
  cases heq
  have hempty : Builder.empty.Distinct := ⟨Table.distinct_empty _ _, Table.distinct_empty _ _⟩
  suffices hall : built.Distinct from ⟨root, rfl, hall.closed? hclosed⟩
  -- one statement after the other
  clear hclosed h hclose
  generalize Builder.empty = start at hbuilt hempty
  induction statements generalizing start with
  | nil =>
    cases hbuilt
    exact hempty
  | cons statement statements ih =>
    obtain ⟨hfirst, hrest⟩ := List.forall_mem_cons.mp hstatements
    rw [List.foldlM_cons] at hbuilt
    obtain ⟨next, hstep, hlater⟩ := Option.bind_eq_some_iff.mp hbuilt
    exact ih hrest next hlater (hempty.step? hfirst hstep)

/-- A document is a table, and no table in it names a key twice. -/
theorem parse?_distinct {text : String} {document : Node} (h : parse? text = some document) :
    ∃ root : Table, document = root.toNode ∧ root.Distinct := by
  obtain ⟨statements, hread, hbuild⟩ := Option.bind_eq_some_iff.mp h
  exact distinct_documentOf? (distinct_statements hread) hbuild

end BatchVerify.Toml
