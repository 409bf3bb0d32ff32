import BatchVerify.Failure
import BatchVerify.Invocation

/-!
# Surroundings

What a batch run needs from the world: a tree to find sources in and to make directories in, and a
verifier to run. Both act on a state `σ` of the world. Before a run, a tree is filled by additions.
-/

namespace BatchVerify

/-- An entry of a directory that could not be classified. -/
structure Skipped where
  path : Path
  cause : SystemError
  deriving DecidableEq, Repr

/-- The entries of a directory that are of the wanted kind, and those that were passed over. -/
structure Listing where
  kept : List Path
  skipped : List Skipped
  deriving DecidableEq, Repr

/-- Discovery of groups and sources, and making of output directories. -/
structure SourceTree (σ : Type) where
  /-- Fails unless a path is a directory that can be read. -/
  checkRoot : Path → σ → Except Failure Unit
  /-- The directories right below a path, in the order of their names. -/
  listGroups : Path → σ → Except Failure Listing
  /-- The regular files right below a path, in the order of their names. -/
  listFiles : Path → σ → Except Failure Listing
  /-- Makes a directory with all it needs above it; succeeds if it is there already. -/
  ensureDir : Path → σ → Except Failure Unit × σ

/-- Something that is added to a tree: a directory, or an empty file. -/
inductive Addition where
  | directory (path : Path)
  | file (path : Path)
  deriving DecidableEq, Repr

/-- The end of a verifier run, and what it wrote. -/
structure Verification where
  status : Status
  stdout : Bytes := []
  stderr : Bytes := []
  deriving DecidableEq, Repr

/-- Runs of a verifier. One that cannot be started is a status, not an error, so that the policy
for failures decides about it. -/
structure Verifier (σ : Type) where
  run : Invocation → σ → Verification × σ

/-- A tree that is a part of a larger state. -/
def SourceTree.within {σ τ : Type} (tree : SourceTree σ) (part : τ → σ) (put : σ → τ → τ) :
    SourceTree τ where
  checkRoot path state := tree.checkRoot path (part state)
  listGroups path state := tree.listGroups path (part state)
  listFiles path state := tree.listFiles path (part state)
  ensureDir path state :=
    let (made, changed) := tree.ensureDir path (part state)
    (made, put changed state)

/-- A verifier that is a part of a larger state. -/
def Verifier.within {σ τ : Type} (verifier : Verifier σ) (part : τ → σ) (put : σ → τ → τ) :
    Verifier τ where
  run invocation state :=
    let (verification, changed) := verifier.run invocation (part state)
    (verification, put changed state)

/-- A tree and a verifier side by side, neither of which touches the other. -/
def sideBySide {σ τ : Type} (tree : SourceTree σ) (verifier : Verifier τ) :
    SourceTree (σ × τ) × Verifier (σ × τ) :=
  ( tree.within Prod.fst fun changed state => (changed, state.2),
    verifier.within Prod.snd fun changed state => (state.1, changed) )

end BatchVerify
