import BatchVerify.Proofs.Config.Validation

/-!
# Validation again and again

Validation changes a configuration in place and stops at the first fault, so a call that fails may
still take a dot off the source extension (`Config.Call`). However many calls are made, and whatever
comes of them, an extension loses one dot with each call that gets to it and accepts it; where
nothing but dots is written the last one stays, and before a separator all of them do
(`Config.renormalized_sheds_dots`).
-/

namespace BatchVerify

/-- An extension that is refused: it is at most a dot, or there is a separator in it. -/
def Unfit (extension : String) : Prop :=
  extension = "" ∨ extension = "." ∨ '/' ∈ extension.toList ∨ '\\' ∈ extension.toList

instance : DecidablePred Unfit := fun extension => by unfold Unfit; infer_instance

/-- The text of a fault tells of a field. -/
def ConfigFault.Names (fault : ConfigFault) (field : String) : Prop :=
  ∃ demand, fault.message = field ++ " must not " ++ demand

/-! ## One extension -/

/-- Only a dot is stripped. -/
theorem mem_stripDot_iff {c : Char} (hc : c ≠ '.') {text : List Char} : c ∈ stripDot text ↔ c ∈ text := by
  by_cases hdot : text.head? = some '.'
  · obtain ⟨rest, rfl⟩ := List.head?_eq_some_iff.mp hdot
    simp [stripDot, hc]
  · rw [stripDot_eq_self_iff.mpr hdot]

theorem stripDot_eq_nil_iff {text : List Char} : stripDot text = [] ↔ text = [] ∨ text = ['.'] := by
  by_cases hdot : text.head? = some '.'
  · obtain ⟨rest, rfl⟩ := List.head?_eq_some_iff.mp hdot
    simp [stripDot]
  · rw [stripDot_eq_self_iff.mpr hdot]
    constructor
    · exact Or.inl
    · rintro (hnil | hone)
      · exact hnil
      · exact absurd (by rw [hone]; rfl) hdot

theorem unfit_iff {extension : String} : Unfit extension ↔
    stripDot extension.toList = [] ∨ '/' ∈ stripDot extension.toList ∨
      '\\' ∈ stripDot extension.toList := by
  have hempty : extension = "" ↔ extension.toList = [] := by simp
  have hdot : extension = "." ↔ extension.toList = ['.'] := by
    rw [← String.toList_inj]
    rfl
  rw [stripDot_eq_nil_iff, mem_stripDot_iff (by decide), mem_stripDot_iff (by decide), Unfit, hempty,
    hdot, or_assoc]

/-- What a call that gets to an extension makes of it. -/
inductive Sheds (extension : String) : String → Prop
  | refused (h : Unfit extension) : Sheds extension extension
  | accepted {stripped : String} (h : ¬ Unfit extension)
    (hstripped : stripped.toList = stripDot extension.toList) : Sheds extension stripped

theorem unfit_of_error {field raw : String} {fault : ConfigFault}
    (h : normalizeExtension field raw = .error fault) : Unfit raw ∧ fault.Names field := by
  have hempty : " must not be empty" = " must not " ++ "be empty" := rfl
  have hseparator : " must not contain a path separator: '" =
      " must not " ++ "contain a path separator: '" := rfl
  unfold normalizeExtension at h
  dsimp only at h
  by_cases hnil : stripDot raw.toList = []
  · rw [if_pos hnil] at h
    cases h
    refine ⟨unfit_iff.mpr (Or.inl hnil), "be empty", ?_⟩
    rw [ConfigFault.message, hempty, String.append_assoc]
  rw [if_neg hnil] at h
  by_cases hcut : '/' ∈ stripDot raw.toList ∨ '\\' ∈ stripDot raw.toList
  · rw [if_pos hcut] at h
    cases h
    refine ⟨unfit_iff.mpr (Or.inr hcut), "contain a path separator: '" ++ raw ++ "'", ?_⟩
    rw [ConfigFault.message, hseparator]
    simp only [String.append_assoc]
  · rw [if_neg hcut] at h
    cases h

theorem sheds_of_ok {field raw extension : String} (h : normalizeExtension field raw = .ok extension) :
    ¬ Unfit raw ∧ Sheds raw extension := by
  obtain ⟨hstrip, hempty, hslash, hbackslash⟩ := normalizeExtension_eq_ok_iff.mp h
  have hfit : ¬ Unfit raw := by
    rw [unfit_iff, ← hstrip]
    exact not_or.mpr ⟨hempty, not_or.mpr ⟨hslash, hbackslash⟩⟩
  exact ⟨hfit, .accepted hfit hstrip⟩

/-! ## Leading dots -/

/-- A text is written as a number of dots and the rest, which starts with none. -/
structure Leads (dots : Nat) (rest : List Char) (text : String) : Prop where
  written : text.toList = List.replicate dots '.' ++ rest
  undotted : rest.head? ≠ some '.'

/-- How many of the dots before the rest of an extension are lost in a number of calls. -/
def lostDots (calls dots : Nat) (rest : List Char) : Nat :=
  if '/' ∈ rest ∨ '\\' ∈ rest then 0
  else if rest = [] then min calls (max dots 1 - 1)
  else min calls dots

variable {calls dots : Nat} {rest : List Char} {text stripped : String}

theorem lostDots_zero (dots : Nat) (rest : List Char) : lostDots 0 dots rest = 0 := by
  unfold lostDots
  split_ifs <;> simp

theorem Leads.unfit_iff (h : Leads dots rest text) :
    Unfit text ↔ ('/' ∈ rest ∨ '\\' ∈ rest) ∨ rest = [] ∧ dots ≤ 1 := by
  have hmem {c : Char} (hc : c ≠ '.') : c ∈ text.toList ↔ c ∈ rest := by
    rw [h.written, List.mem_append, List.mem_replicate]
    simp [hc]
  have hshort : text = "" ∨ text = "." ↔ rest = [] ∧ dots ≤ 1 := by
    have hone : rest ≠ ['.'] := fun heq => h.undotted (by rw [heq]; rfl)
    rw [← String.toList_inj, ← String.toList_inj, h.written]
    match dots with
    | 0 => simp [hone]
    | 1 => simp
    | dots + 2 => simp [List.replicate_succ]
  rw [Unfit, ← or_assoc, hshort, hmem (by decide), hmem (by decide)]
  exact or_comm

theorem Leads.stripDot (h : Leads dots rest text) (hstripped : stripped.toList = stripDot text.toList) :
    Leads (dots - 1) rest stripped := by
  refine ⟨?_, h.undotted⟩
  rw [hstripped, h.written]
  cases dots with
  | zero => exact stripDot_eq_self_iff.mpr h.undotted
  | succ dots => rfl

/-- What is refused once is refused for good, and loses no more dots. -/
theorem Leads.lostDots_of_unfit (h : Leads (dots - lostDots calls dots rest) rest text)
    (hunfit : Unfit text) : lostDots (calls + 1) dots rest = lostDots calls dots rest := by
  have hcause := h.unfit_iff.mp hunfit
  unfold lostDots at hcause ⊢
  by_cases hseparator : '/' ∈ rest ∨ '\\' ∈ rest
  · rw [if_pos hseparator, if_pos hseparator]
  · have hdots := hcause.resolve_left hseparator
    obtain ⟨hrest, hone⟩ := hdots
    rw [if_neg hseparator, if_pos hrest] at hone ⊢
    rw [if_neg hseparator, if_pos hrest]
    omega

/-- What is accepted loses a dot, if it has one to lose. -/
theorem Leads.lostDots_of_not_unfit (h : Leads (dots - lostDots calls dots rest) rest text)
    (hfit : ¬ Unfit text) :
    dots - lostDots (calls + 1) dots rest = dots - lostDots calls dots rest - 1 := by
  have hcause := mt h.unfit_iff.mpr hfit
  obtain ⟨hseparator, hdots⟩ := not_or.mp hcause
  unfold lostDots at hdots ⊢
  rw [if_neg hseparator, if_neg hseparator] at *
  by_cases hrest : rest = []
  · rw [if_pos hrest] at hdots
    have htwo := not_and.mp hdots hrest
    rw [if_pos hrest, if_pos hrest]
    omega
  · rw [if_neg hrest, if_neg hrest]
    omega

/-- A call that gets to an extension takes off the dot that the number of calls tells. -/
theorem Leads.call (h : Leads (dots - lostDots calls dots rest) rest text) (hsheds : Sheds text stripped) :
    Leads (dots - lostDots (calls + 1) dots rest) rest stripped := by
  cases hsheds with
  | refused hunfit =>
    rw [h.lostDots_of_unfit hunfit]
    exact h
  | accepted hfit hstripped =>
    rw [h.lostDots_of_not_unfit hfit]
    exact h.stripDot hstripped

/-! ## Calls on one configuration -/

namespace Config

/-- A call of validation: what it leaves behind, and the fault that it ends with. -/
inductive Call (config : Config) : Config × Option ConfigFault → Prop
  | noProgram (hprogram : config.verifier.program.bytes = []) :
    Call config (config, some .emptyProgram)
  | sourceRefused {fault : ConfigFault} (hprogram : config.verifier.program.bytes ≠ [])
    (hsource : Unfit config.layout.sourceExtension)
    (hnames : fault.Names "layout.source_extension") : Call config (config, some fault)
  /-- The source extension has lost its dot all the same. -/
  | targetRefused {fault : ConfigFault} {source : String}
    (hprogram : config.verifier.program.bytes ≠ []) (hfit : ¬ Unfit config.layout.sourceExtension)
    (hsource : Sheds config.layout.sourceExtension source)
    (htarget : Unfit config.layout.targetExtension)
    (hnames : fault.Names "layout.target_extension") :
    Call config ({ config with layout := { config.layout with sourceExtension := source } }, some fault)
  | valid {source target : String} (hprogram : config.verifier.program.bytes ≠ [])
    (hfit : ¬ Unfit config.layout.sourceExtension)
    (hsource : Sheds config.layout.sourceExtension source)
    (hfit' : ¬ Unfit config.layout.targetExtension)
    (htarget : Sheds config.layout.targetExtension target) :
    Call config ({ config with
      layout := { config.layout with sourceExtension := source, targetExtension := target } }, none)

theorem call_normalize (config : Config) : config.Call config.normalize := by
  unfold normalize
  by_cases hprogram : config.verifier.program.bytes = []
  · rw [if_pos hprogram]
    exact .noProgram hprogram
  rw [if_neg hprogram]
  have hafter := config.layout.normalizing
  generalize config.layout.normalize = after at hafter
  cases hafter with
  | sourceRefused hsource =>
    obtain ⟨hunfit, hnames⟩ := unfit_of_error hsource
    exact .sourceRefused hprogram hunfit hnames
  | targetRefused hsource htarget =>
    obtain ⟨hfit, hsheds⟩ := sheds_of_ok hsource
    obtain ⟨hunfit, hnames⟩ := unfit_of_error htarget
    exact .targetRefused hprogram hfit hsheds hunfit hnames
  | valid hsource htarget =>
    obtain ⟨hfit, hsheds⟩ := sheds_of_ok hsource
    obtain ⟨hfit', hsheds'⟩ := sheds_of_ok htarget
    exact .valid hprogram hfit hsheds hfit' hsheds'

/-- The fields that are at fault, in the order in which they are checked. -/
def faulty (config : Config) : List String :=
  (if config.verifier.program.bytes = [] then ["verifier.program"] else []) ++
    (if Unfit config.layout.sourceExtension then ["layout.source_extension"] else []) ++
    (if Unfit config.layout.targetExtension then ["layout.target_extension"] else [])

variable {config : Config} {after : Config × Option ConfigFault}

/-- A call fails just when a field is at fault, and tells of the first one. -/
theorem Call.names (h : config.Call after) : Option.Rel ConfigFault.Names after.2 config.faulty.head? := by
  cases h with
  | noProgram hprogram =>
    have hhead : config.faulty.head? = some "verifier.program" := by simp [faulty, hprogram]
    rw [hhead]
    exact .some ⟨"be empty", rfl⟩
  | sourceRefused hprogram hsource hnames =>
    have hhead : config.faulty.head? = some "layout.source_extension" := by
      simp [faulty, hprogram, hsource]
    rw [hhead]
    exact .some hnames
  | targetRefused hprogram hfit _ htarget hnames =>
    have hhead : config.faulty.head? = some "layout.target_extension" := by
      simp [faulty, hprogram, hfit, htarget]
    rw [hhead]
    exact .some hnames
  | valid hprogram hfit _ hfit' _ =>
    have hhead : config.faulty.head? = none := by simp [faulty, hprogram, hfit, hfit']
    rw [hhead]
    exact .none

/-- Nothing but the extensions changes. -/
theorem Call.frame (h : config.Call after) :
    after.1.verifier = config.verifier ∧ after.1.run = config.run ∧
      after.1.layout.outputRoot = config.layout.outputRoot := by
  cases h <;> exact ⟨rfl, rfl, rfl⟩

theorem Call.sheds_source (h : config.Call after) (hprogram : config.verifier.program.bytes ≠ []) :
    Sheds config.layout.sourceExtension after.1.layout.sourceExtension := by
  cases h with
  | noProgram hnone => exact absurd hnone hprogram
  | sourceRefused _ hsource _ => exact .refused hsource
  | targetRefused _ _ hsource _ _ => exact hsource
  | valid _ _ hsource _ _ => exact hsource

/-- A call gets to the target extension if it accepts the source extension. -/
theorem Call.sheds_target (h : config.Call after) (hprogram : config.verifier.program.bytes ≠ [])
    (hfit : ¬ Unfit config.layout.sourceExtension) :
    Sheds config.layout.targetExtension after.1.layout.targetExtension := by
  cases h with
  | noProgram hnone => exact absurd hnone hprogram
  | sourceRefused _ hsource _ => exact absurd hsource hfit
  | targetRefused _ _ _ htarget _ => exact .refused htarget
  | valid _ _ _ _ htarget => exact htarget

theorem Call.target_eq (h : config.Call after) (hunfit : Unfit config.layout.sourceExtension) :
    after.1.layout.targetExtension = config.layout.targetExtension := by
  cases h with
  | noProgram _ => rfl
  | sourceRefused _ _ _ => rfl
  | targetRefused _ hfit _ _ _ => exact absurd hunfit hfit
  | valid _ hfit _ _ _ => exact absurd hunfit hfit

theorem Call.eq_of_noProgram (h : config.Call after) (hprogram : config.verifier.program.bytes = []) :
    after = (config, some .emptyProgram) := by
  cases h with
  | noProgram _ => rfl
  | sourceRefused hne _ _ => exact absurd hprogram hne
  | targetRefused hne _ _ _ _ => exact absurd hprogram hne
  | valid hne _ _ _ _ => exact absurd hprogram hne

/-! ## Many calls -/

/-- A configuration after it was validated a number of times, whatever came of it. -/
def renormalized (config : Config) : Nat → Config
  | 0 => config
  | n + 1 => (config.renormalized n).normalize.1

/-- How many of the first calls accept the source extension. -/
def sourceAccepted (config : Config) (n : Nat) : Nat :=
  (List.range n).countP fun i => ¬ Unfit (config.renormalized i).layout.sourceExtension

theorem call_renormalized (config : Config) (n : Nat) :
    (config.renormalized n).Call (config.renormalized (n + 1), (config.renormalized n).normalize.2) :=
  call_normalize (config.renormalized n)

theorem sourceAccepted_succ (config : Config) (n : Nat) : config.sourceAccepted (n + 1) =
    config.sourceAccepted n +
      if Unfit (config.renormalized n).layout.sourceExtension then 0 else 1 := by
  unfold sourceAccepted
  rw [List.range_succ, List.countP_append, List.countP_singleton]
  by_cases hunfit : Unfit (config.renormalized n).layout.sourceExtension <;> simp [hunfit]

theorem renormalized_frame (config : Config) (n : Nat) :
    (config.renormalized n).verifier = config.verifier ∧ (config.renormalized n).run = config.run ∧
      (config.renormalized n).layout.outputRoot = config.layout.outputRoot := by
  induction n with
  | zero => exact ⟨rfl, rfl, rfl⟩
  | succ n ih =>
    obtain ⟨hverifier, hrun, hroot⟩ := (config.call_renormalized n).frame
    exact ⟨hverifier.trans ih.1, hrun.trans ih.2.1, hroot.trans ih.2.2⟩

theorem program_renormalized (hprogram : config.verifier.program.bytes ≠ []) (n : Nat) :
    (config.renormalized n).verifier.program.bytes ≠ [] := by
  rwa [(config.renormalized_frame n).1]

theorem renormalized_of_noProgram (hprogram : config.verifier.program.bytes = []) (n : Nat) :
    config.renormalized n = config := by
  induction n with
  | zero => rfl
  | succ n ih =>
    have hcall := config.call_renormalized n
    rw [ih] at hcall
    exact congrArg Prod.fst (hcall.eq_of_noProgram hprogram)

theorem leads_source_renormalized (hprogram : config.verifier.program.bytes ≠ [])
    (h : Leads dots rest config.layout.sourceExtension) (n : Nat) :
    Leads (dots - lostDots n dots rest) rest (config.renormalized n).layout.sourceExtension := by
  induction n with
  | zero =>
    rw [lostDots_zero, Nat.sub_zero]
    exact h
  | succ n ih =>
    have hsheds := (config.call_renormalized n).sheds_source (program_renormalized hprogram n)
    exact ih.call hsheds

theorem leads_target_renormalized (hprogram : config.verifier.program.bytes ≠ [])
    (h : Leads dots rest config.layout.targetExtension) (n : Nat) :
    Leads (dots - lostDots (config.sourceAccepted n) dots rest) rest
      (config.renormalized n).layout.targetExtension := by
  induction n with
  | zero =>
    rw [show config.sourceAccepted 0 = 0 from rfl, lostDots_zero, Nat.sub_zero]
    exact h
  | succ n ih =>
    have hcall := config.call_renormalized n
    rw [sourceAccepted_succ]
    by_cases hunfit : Unfit (config.renormalized n).layout.sourceExtension
    · -- the call does not get there
      rw [if_pos hunfit, Nat.add_zero, hcall.target_eq hunfit]
      exact ih
    · rw [if_neg hunfit]
      exact ih.call (hcall.sheds_target (program_renormalized hprogram n) hunfit)

/-- After any number of calls the extensions have lost their dots by the number of calls that got to
them, and nothing else has changed. The next call fails just when a field is at fault as it stands,
and tells of the first one. -/
theorem renormalized_sheds_dots (n : Nat) {dots' : Nat} {rest' : List Char}
    (hsource : Leads dots rest config.layout.sourceExtension)
    (htarget : Leads dots' rest' config.layout.targetExtension) :
    let now := config.renormalized n
    (now.verifier = config.verifier ∧ now.run = config.run ∧
        now.layout.outputRoot = config.layout.outputRoot) ∧
      (config.verifier.program.bytes = [] →
        now = config ∧ now.normalize.2 = some .emptyProgram) ∧
      (config.verifier.program.bytes ≠ [] →
        Leads (dots - lostDots n dots rest) rest now.layout.sourceExtension ∧
          Leads (dots' - lostDots (config.sourceAccepted n) dots' rest') rest'
            now.layout.targetExtension) ∧
      Option.Rel ConfigFault.Names now.normalize.2 now.faulty.head? := by
  intro now
  refine ⟨config.renormalized_frame n, fun hprogram => ?_, fun hprogram => ?_,
    (call_normalize now).names⟩
  · have hsame : now = config := renormalized_of_noProgram hprogram n
    rw [hsame]
    exact ⟨rfl, congrArg Prod.snd ((call_normalize config).eq_of_noProgram hprogram)⟩
  · exact ⟨leads_source_renormalized hprogram hsource n,
      leads_target_renormalized hprogram htarget n⟩

/-- Of three dots alone the last one stays, and each later call fails for it; the target extension has
lost the two dots of the calls before. -/
theorem renormalized_sheds_dots_alone :
    let config : Config := { layout := { sourceExtension := "...", targetExtension := "...smt2" } }
    (config.renormalized 5).layout.sourceExtension = "." ∧
      (config.renormalized 5).layout.targetExtension = ".smt2" ∧
      ∃ fault, (config.renormalized 5).normalize.2 = some fault ∧
        fault.Names "layout.source_extension" := by
  intro config
  have hsource : Leads 3 [] config.layout.sourceExtension := ⟨by decide, by decide⟩
  have htarget : Leads 3 ['s', 'm', 't', '2'] config.layout.targetExtension :=
    ⟨by decide, by decide⟩
  have hprogram : config.verifier.program.bytes ≠ [] := by decide +kernel
  have haccepted : config.sourceAccepted 5 = 2 := by decide +kernel
  obtain ⟨⟨hverifier, -⟩, -, hdots, hnames⟩ := renormalized_sheds_dots 5 hsource htarget
  have hleft := hdots hprogram
  rw [haccepted] at hleft
  generalize config.renormalized 5 = now at hverifier hleft hnames ⊢
  have hone : now.layout.sourceExtension = "." := String.toList_inj.mp hleft.1.written
  refine ⟨hone, String.toList_inj.mp hleft.2.written, ?_⟩
  have hhead : now.faulty.head? = some "layout.source_extension" := by
    simp [faulty, hverifier, hprogram, hone, Unfit]
  rw [hhead] at hnames
  cases hfault : now.normalize.2 with
  | none =>
    rw [hfault] at hnames
    cases hnames
  | some fault =>
    rw [hfault] at hnames
    cases hnames with
    | some hnames => exact ⟨fault, rfl, hnames⟩

end Config

end BatchVerify
