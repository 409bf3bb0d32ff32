import BatchVerify.Proofs.Batch.InStep

/-!
# What a verifier was asked and answered

`Setting.noted` keeps beside the state of a run what the verifier was asked and how it answered.
The notes change nothing: forgetting them gives the run without them (`Batch.execute_noted`). A
report has one outcome for each note, in order (`Batch.noted_step`).
-/

namespace BatchVerify

variable {σ : Type}

/-- What a verifier was asked and how it answered. -/
abbrev Notes := List (Invocation × Status)

/-- A verifier whose answers are noted. -/
def Verifier.noted (verifier : Verifier σ) : Verifier (σ × Notes) where
  run invocation state :=
    let answer := verifier.run invocation state.1
    (answer.1, (answer.2, state.2 ++ [(invocation, answer.1.status)]))

/-- The setting of a run that notes what its verifier answers. -/
def Setting.noted (setting : Setting σ) : Setting (σ × Notes) where
  tree := setting.tree.within Prod.fst fun changed state => (changed, state.2)
  verifier := setting.verifier.noted
  config := setting.config
  tell line state :=
    let told := setting.tell line state.1
    (told.1, (told.2, state.2))

/-- A run without its notes. -/
def Run.forget (run : Run (σ × Notes)) : Run σ :=
  { state := run.state.1, report := run.report, trace := run.trace }

namespace Batch

variable {setting : Setting σ}

/-! ## Notes change nothing -/

/-- The surroundings answer alike, whatever was noted. -/
theorem noted_inStep (setting : Setting σ) :
    setting.noted.InStep (fun state plain => state.1 = plain) some setting where
  config := rfl
  checkRoot := by rintro s _ path rfl; rfl
  listGroups := by rintro s _ path rfl; rfl
  listFiles := by rintro s _ path rfl; rfl
  ensureDir := by rintro s _ dir rfl; exact ⟨rfl, rfl⟩
  verify := by rintro s _ invocation rfl; exact ⟨rfl, rfl⟩
  tell := by rintro s _ line rfl; exact ⟨rfl, rfl⟩

/-- A run whose notes are forgotten is the run without notes. -/
theorem execute_noted (setting : Setting σ) (root : Path) (state : σ) (notes : Notes) :
    Prod.map Run.forget id (execute setting.noted root (state, notes)) =
      execute setting root state := by
  have hstart : (state, notes).1 = state := rfl
  obtain ⟨hstep, hresult⟩ := execute_inStep (noted_inStep setting) hstart root
  exact Prod.ext hstep.eq hresult

/-! ## What is noted -/

/-- The verifier answered once for each outcome, in order. -/
def Noted (settings : VerifierSettings) (run : Run (σ × Notes)) : Prop :=
  run.state.2 =
    run.report.outcomes.map fun outcome => (outcome.invocation settings, outcome.status)

theorem noted_step {run next : Run (σ × Notes)} (h : Step setting.noted run next)
    (hrun : Noted setting.config.verifier run) : Noted setting.config.verifier next := by
  cases h with
  | announce group =>
    rcases announce_cases setting.noted group run with ⟨cause, _, heq⟩ | ⟨_, heq⟩ <;> rw [heq] <;>
      exact hrun
  | openGroup group =>
    unfold Noted
    rw [report_openGroup, ← hrun]
    rcases state_openGroup setting.noted group run with h | h <;> rw [h]
    rfl
  | verify group source =>
    unfold Noted at hrun ⊢
    rw [report_verifySource]
    show run.state.2 ++ [_] = _
    rw [hrun, Report.record, List.map_append]
    rfl

end Batch

end BatchVerify
