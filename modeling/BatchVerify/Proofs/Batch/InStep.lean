import BatchVerify.Proofs.Batch.Steps

/-!
# Runs in step

Two runs whose surroundings answer alike, from states that are related, end alike: with the same
report, the same result and related states (`Batch.execute_inStep`). Their traces agree as far as a
view of events shows it, so the surroundings may differ in what the view leaves out.
-/

namespace BatchVerify

variable {σ τ β : Type}

/-- What a view of events shows of a listing, with the paths that are kept. -/
def Listing.shown (view : Event → Option β) (listing : Listing) : List Path × List β :=
  (listing.kept, listing.events.filterMap view)

/-- Listings that show alike are both refused for one reason, or keep the same paths. -/
theorem Listing.shown_cases {view : Event → Option β} {a b : Except Failure Listing}
    (h : a.map (Listing.shown view) = b.map (Listing.shown view)) :
    (∃ failure, a = .error failure ∧ b = .error failure) ∨
    (∃ listing listing', a = .ok listing ∧ b = .ok listing' ∧ listing.kept = listing'.kept ∧
      listing.events.filterMap view = listing'.events.filterMap view) := by
  cases a with
  | error failure =>
    cases b with
    | error failure' => exact Or.inl ⟨failure, rfl, congrArg Except.error (Except.error.inj h).symm⟩
    | ok listing' => cases h
  | ok listing =>
    cases b with
    | error failure' => cases h
    | ok listing' =>
      obtain ⟨hkept, hevents⟩ := Prod.mk.inj (Except.ok.inj h)
      exact Or.inr ⟨listing, listing', rfl, rfl, hkept, hevents⟩

/-- Two settings whose surroundings answer alike in related states, and leave them related. -/
structure Setting.InStep (rel : σ → τ → Prop) (view : Event → Option β) (left : Setting σ)
    (right : Setting τ) : Prop where
  config : left.config = right.config
  checkRoot : ∀ {s t} (path : Path), rel s t →
    left.tree.checkRoot path s = right.tree.checkRoot path t
  listGroups : ∀ {s t} (path : Path), rel s t →
    (left.tree.listGroups path s).map (Listing.shown view) =
      (right.tree.listGroups path t).map (Listing.shown view)
  listFiles : ∀ {s t} (path : Path), rel s t →
    (left.tree.listFiles path s).map (Listing.shown view) =
      (right.tree.listFiles path t).map (Listing.shown view)
  ensureDir : ∀ {s t} (dir : Path), rel s t →
    (left.tree.ensureDir dir s).1 = (right.tree.ensureDir dir t).1 ∧
      rel (left.tree.ensureDir dir s).2 (right.tree.ensureDir dir t).2
  verify : ∀ {s t} (invocation : Invocation), rel s t →
    (left.verifier.run invocation s).1 = (right.verifier.run invocation t).1 ∧
      rel (left.verifier.run invocation s).2 (right.verifier.run invocation t).2
  tell : ∀ {s t} (line : String), rel s t →
    (left.tell line s).1 = (right.tell line t).1 ∧
      rel (left.tell line s).2 (right.tell line t).2

/-- Two runs that have come equally far, as far as a view of events shows it. -/
structure Run.InStep (rel : σ → τ → Prop) (view : Event → Option β) (run : Run σ)
    (other : Run τ) : Prop where
  state : rel run.state other.state
  report : run.report = other.report
  trace : run.trace.filterMap view = other.trace.filterMap view

variable {rel : σ → τ → Prop} {view : Event → Option β} {left : Setting σ} {right : Setting τ}
  {run : Run σ} {other : Run τ}

theorem Run.InStep.emit (h : run.InStep rel view other) {events events' : List Event}
    (hevents : events.filterMap view = events'.filterMap view) :
    (run.emit events).InStep rel view (other.emit events') where
  state := h.state
  report := h.report
  trace := by
    show (run.trace ++ events).filterMap view = (other.trace ++ events').filterMap view
    rw [List.filterMap_append, List.filterMap_append, h.trace, hevents]

/-- In full view, a run in step with one whose state is a part of its own is that run, but for the
rest of its state. -/
theorem Run.InStep.eq {part : σ → τ} (h : run.InStep (fun s t => part s = t) some other) :
    ({ state := part run.state, report := run.report, trace := run.trace } : Run τ) = other := by
  obtain ⟨state, report, trace⟩ := other
  obtain ⟨rfl, rfl, htrace⟩ := h
  rw [List.filterMap_some, List.filterMap_some] at htrace
  rw [htrace]

namespace Batch

theorem announce_inStep (h : left.InStep rel view right) (hrun : run.InStep rel view other)
    (group : Group) :
    (announce left group run).1.InStep rel view (announce right group other).1 ∧
      (announce left group run).2 = (announce right group other).2 := by
  obtain ⟨htold, hstate⟩ := h.tell (progressLine group) hrun.state
  unfold announce
  rcases htell : left.tell (progressLine group) run.state with ⟨told, state⟩
  rcases htell' : right.tell (progressLine group) other.state with ⟨told', state'⟩
  rw [htell, htell'] at htold hstate
  obtain rfl : told = told' := htold
  cases told with
  | error cause => exact ⟨⟨hstate, hrun.report, hrun.trace⟩, rfl⟩
  | ok told =>
    refine ⟨⟨hstate, congrArg Report.recordGroup hrun.report, ?_⟩, rfl⟩
    exact (hrun.emit rfl).trace

theorem openGroup_inStep (h : left.InStep rel view right) (hrun : run.InStep rel view other)
    (group : Group) :
    (openGroup left group run).1.InStep rel view (openGroup right group other).1 ∧
      (openGroup left group run).2 = (openGroup right group other).2 := by
  rcases Listing.shown_cases (h.listFiles group.path hrun.state) with
    ⟨failure, hlist, hlist'⟩ | ⟨listing, listing', hlist, hlist', hkept, hshown⟩
  · rw [openGroup_of_error hlist, openGroup_of_error hlist']
    exact ⟨hrun, rfl⟩
  · have hsources : sourcesIn left listing = sourcesIn right listing' := by
      unfold sourcesIn
      rw [hkept, h.config]
    have hevents : (listingEvents left group listing).filterMap view =
        (listingEvents right group listing').filterMap view := by
      unfold listingEvents
      rw [List.filterMap_append, List.filterMap_append, hshown, hsources]
    have htold := hrun.emit hevents
    by_cases hnil : sourcesIn left listing = []
    · rw [openGroup_of_nil hlist hnil, openGroup_of_nil hlist' (hsources ▸ hnil)]
      exact ⟨htold, rfl⟩
    · rw [openGroup_of_ne_nil hlist hnil, openGroup_of_ne_nil hlist' (hsources ▸ hnil)]
      obtain ⟨hmade, hstate⟩ := h.ensureDir (left.config.layout.outputDir group.name) hrun.state
      rw [h.config] at hmade hstate
      dsimp only
      rw [h.config, hmade, hsources]
      exact ⟨⟨hstate, htold.report, htold.trace⟩, rfl⟩

theorem verifySource_inStep (h : left.InStep rel view right) (hrun : run.InStep rel view other)
    (group : Group) (source : Source) :
    (verifySource left group source run).1.InStep rel view (verifySource right group source other).1 ∧
      (verifySource left group source run).2 = (verifySource right group source other).2 := by
  obtain ⟨hanswer, hstate⟩ := h.verify (Invocation.ofSource left.config.verifier source.path
    (left.config.layout.target group.name source.stem)) hrun.state
  unfold verifySource
  rw [h.config] at hanswer hstate ⊢
  dsimp only
  rw [hanswer, hrun.report]
  refine ⟨⟨hstate, rfl, ?_⟩, rfl⟩
  rw [List.filterMap_append, List.filterMap_append, List.filterMap_append, List.filterMap_append,
    hrun.trace]

theorem verifySources_inStep (h : left.InStep rel view right) (hrun : run.InStep rel view other)
    (group : Group) (sources : List Source) :
    (verifySources left group sources run).1.InStep rel view
        (verifySources right group sources other).1 ∧
      (verifySources left group sources run).2 = (verifySources right group sources other).2 := by
  induction sources generalizing run other with
  | nil => exact ⟨hrun, rfl⟩
  | cons source sources ih =>
    obtain ⟨hnext, hstatus⟩ := verifySource_inStep h hrun group source
    simp only [verifySources]
    rw [← hstatus, ← h.config]
    split_ifs
    · exact ih hnext
    · exact ⟨hnext, by rw [hnext.report]⟩

theorem visitGroup_inStep (h : left.InStep rel view right) (hrun : run.InStep rel view other)
    (group : Group) :
    (visitGroup left group run).1.InStep rel view (visitGroup right group other).1 ∧
      (visitGroup left group run).2 = (visitGroup right group other).2 := by
  obtain ⟨hannounced, hstop⟩ := announce_inStep h hrun group
  rcases hannounce : announce left group run with ⟨announced, _ | failure⟩ <;>
    rcases hannounce' : announce right group other with ⟨announced', _ | failure'⟩ <;>
    rw [hannounce, hannounce'] at hannounced hstop <;> cases hstop
  · obtain ⟨hopened, hfound⟩ := openGroup_inStep h hannounced group
    rcases hopen : openGroup left group announced with ⟨opened, failure | sources⟩ <;>
      rcases hopen' : openGroup right group announced' with ⟨opened', failure' | sources'⟩ <;>
      rw [hopen, hopen'] at hopened hfound <;> cases hfound
    · rw [visitGroup_of_unopened left hannounce hopen, visitGroup_of_unopened right hannounce' hopen']
      exact ⟨hopened, rfl⟩
    · rw [visitGroup_of_opened left hannounce hopen, visitGroup_of_opened right hannounce' hopen']
      exact verifySources_inStep h hopened group sources
  · rw [visitGroup_of_untold left hannounce, visitGroup_of_untold right hannounce']
    exact ⟨hannounced, rfl⟩

theorem visitGroups_inStep (h : left.InStep rel view right) (hrun : run.InStep rel view other)
    (groups : List Group) :
    (visitGroups left groups run).1.InStep rel view (visitGroups right groups other).1 ∧
      (visitGroups left groups run).2 = (visitGroups right groups other).2 := by
  induction groups generalizing run other with
  | nil => exact ⟨hrun, rfl⟩
  | cons group groups ih =>
    obtain ⟨hvisited, hstop⟩ := visitGroup_inStep h hrun group
    rcases hvisit : visitGroup left group run with ⟨visited, _ | failure⟩ <;>
      rcases hvisit' : visitGroup right group other with ⟨visited', _ | failure'⟩ <;>
      rw [hvisit, hvisit'] at hvisited hstop <;> cases hstop
    · rw [visitGroups_cons_of_none hvisit, visitGroups_cons_of_none hvisit']
      exact ih hvisited
    · rw [visitGroups_cons_of_some hvisit, visitGroups_cons_of_some hvisit']
      exact ⟨hvisited, rfl⟩

theorem finish_inStep {result : Run σ × Option Failure} {result' : Run τ × Option Failure}
    (hrun : result.1.InStep rel view result'.1) (hstop : result.2 = result'.2) :
    (finish result).1.InStep rel view (finish result').1 ∧
      (finish result).2 = (finish result').2 := by
  obtain ⟨visited, stop⟩ := result
  obtain ⟨visited', stop'⟩ := result'
  obtain rfl : stop = stop' := hstop
  have hreport : visited.report = visited'.report := hrun.report
  cases stop with
  | none =>
    simp only [finish, hreport]
    exact ⟨hrun.emit rfl, trivial⟩
  | some failure => exact ⟨hrun, rfl⟩

/-- Surroundings that answer alike make for runs that end alike. -/
theorem execute_inStep (h : left.InStep rel view right) {s : σ} {t : τ} (hstate : rel s t)
    (root : Path) :
    (execute left root s).1.InStep rel view (execute right root t).1 ∧
      (execute left root s).2 = (execute right root t).2 := by
  have hstart : ({ state := s } : Run σ).InStep rel view ({ state := t } : Run τ) :=
    ⟨hstate, rfl, rfl⟩
  unfold execute
  rw [← h.checkRoot root hstate]
  cases left.tree.checkRoot root s with
  | error failure => exact ⟨hstart, rfl⟩
  | ok checked =>
    dsimp only
    rcases Listing.shown_cases (h.listGroups root hstate) with
      ⟨failure, hlist, hlist'⟩ | ⟨listing, listing', hlist, hlist', hkept, hshown⟩
    · rw [hlist, hlist']
      exact ⟨hstart, rfl⟩
    · rw [hlist, hlist']
      dsimp only
      rw [← hkept]
      -- both runs visit the groups that are kept, and see nothing different of the listings
      have hlisted : ({ state := s, trace := listing.events } : Run σ).InStep rel view
          ({ state := t, trace := listing'.events } : Run τ) := ⟨hstate, rfl, hshown⟩
      obtain ⟨hvisited, hstop⟩ :=
        visitGroups_inStep h hlisted (listing.kept.filterMap Group.ofPath?)
      exact finish_inStep hvisited hstop

end Batch

end BatchVerify
