/-!
# Byte sequences

File names, paths and the output of other programs are sequences of bytes without a promised
encoding.
-/

namespace BatchVerify

/-- A file name, a path or a program's output, byte by byte. -/
abbrev Bytes := List UInt8

namespace Bytes

/-- The separator of path components, `/`. -/
def slash : UInt8 := 0x2F

/-- The byte that introduces an extension, `.`. -/
def dot : UInt8 := 0x2E

/-- The byte that no name known to an operating system contains, NUL. -/
def nul : UInt8 := 0x00

end Bytes

end BatchVerify
