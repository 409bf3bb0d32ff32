import BatchVerify.Config.Basic

/-!
# Layout

Which directories are groups, which files are sources, and where the prover log of a source goes:
`<output root>/<group name>/<stem>.<target extension>`.
-/

namespace BatchVerify

/-- A directory right below the root. Its name is reused below the output root. -/
structure Group where
  name : Bytes
  path : Path
  deriving DecidableEq, Repr

/-- The group of a directory, unless its path ends in no name. -/
def Group.ofPath? (path : Path) : Option Group := path.name?.map fun name => ⟨name, path⟩

/-- The last extension of a path is a given one, letter case included. -/
def hasExtension (path : Path) (extension : String) : Bool :=
  path.extension? = some (Utf8.encode extension)

/-- A file with the source extension, and its name without it. -/
structure Source where
  path : Path
  stem : Bytes
  deriving DecidableEq, Repr

/-- A path as a source, if its last extension is the given one. -/
def Source.matching? (path : Path) (extension : String) : Option Source :=
  if hasExtension path extension then path.stem?.map fun stem => ⟨path, stem⟩ else none

namespace Layout

/-- The directory for the prover logs of a group. -/
def outputDir (layout : Layout) (group : Bytes) : Path := layout.outputRoot.join ⟨group⟩

/-- The prover log of a source. -/
def target (layout : Layout) (group stem : Bytes) : Path :=
  (layout.outputDir group).join ⟨stem ++ Bytes.dot :: Utf8.encode layout.targetExtension⟩

end Layout

end BatchVerify
