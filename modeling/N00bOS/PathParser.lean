import N00bOS.Kernel
import N00bOS.Libc

/-!
# Parsing paths

`fs/path_parser.cpp`: a path such as `0:/dir/file` is validated, its drive is
read, and its parts are taken one after the other, each with a copy of its name
on the heap. A path is a string; what is left of it while it is parsed is a
suffix of it, which is what the `const char**` of the source points to.

The parts are a list in the model, and linked structures on the heap: the list
that `next` links is the list that is returned, and the blocks of each part and
of each name are allocated where the source allocates them. The loop of `parse`
may go on for ever, when a round takes no character; its model then faults with
`Fault.diverged`.
-/

namespace N00bOS

open KernelM

/-- `MAX_PATH_LENGTH`. -/
def maxPathLength : ℕ := 4096

namespace PathParser

/-- `'/'`. -/
def slash : Byte := 0x2F#8

/-- `':'`. -/
def colon : Byte := 0x3A#8

/-- `validate_path`: `[0-9]:/.*`. -/
def validatePath : List Byte → Bool
  | driveNum :: c :: s :: _ => isdigit driveNum && c = colon && s = slash
  | _ => false

/-- `get_drive`. -/
def getDrive (path : List Byte) : KernelM ℤ := do
  let driveStr ← kzalloc 2
  let drive := atoi (path.take 1)
  kfree driveStr
  return drive

/-- `create_root`. -/
def createRoot (driveNumber : ℤ) : KernelM Ptr := do
  let root ← allocate 8
  modify fun k => k.setPathRoot root.id (some ⟨driveNumber, []⟩)
  return root

/-- `get_path_part_str`: the string, or null, and what is left of the path. -/
def getPathPartStr (path : List Byte) : KernelM (Ptr × List Byte) := do
  let part := path.takeWhile (· ≠ slash)
  if part.length = 0 then
    return (Ptr.null, path)
  let pathPartStr ← allocate (BitVec.ofNat 32 (part.length + 1))
  modify fun k => k.setString pathPartStr.id (some part)
  -- skip past the '/'
  return (pathPartStr, (path.drop part.length).drop 1)

/-- `parse_path_part`: the part, and what is left of the path. The caller
appends it. -/
def parsePathPart (path : List Byte) : KernelM (PathPart × List Byte) := do
  let (pathPartStr, path) ← getPathPartStr path
  let currentPart ← allocate 8
  return (⟨currentPart, pathPartStr⟩, path)

/-- The loop of `parse`, after the `parts` there are already. A round that
takes no character leaves the path as it was, and so does every round after
it: more rounds than there are characters are a loop without an end. -/
def parseLoop : ℕ → List PathPart → List Byte → KernelM (List PathPart)
  | 0, _, _ => Machine.fault Fault.diverged
  | rounds + 1, parts, path =>
    if path = [] then
      return parts
    else do
      let (part, path) ← parsePathPart path
      parseLoop rounds (parts ++ [part]) path

/-- `parse`. -/
def parse (path : List Byte) : KernelM Ptr := do
  if path.length > maxPathLength then
    return Ptr.null
  if !validatePath path then
    return Ptr.null
  let driveNumber ← getDrive path
  if driveNumber < 0 then
    return Ptr.null
  let root ← createRoot driveNumber
  let (part, tmpPath) ← parsePathPart (path.drop 3)
  let parts ← parseLoop (path.length + 1) [part] tmpPath
  modify fun k => k.setPathRoot root.id (some ⟨driveNumber, parts⟩)
  return root

/-- The loop of `free`. The next part is read before the part is freed. A part
without a name has no string to give back, but its null pointer is passed to
`kfree` as well. -/
def freeParts : List PathPart → KernelM Unit
  | [] => return
  | part :: next => do
    kfree part.partName.addr
    modify fun k => if part.partName.addr = 0 then k
      else k.setString part.partName.id none
    kfree part.self.addr
    freeParts next

/-- `free`. -/
def free (root : Ptr) : KernelM Unit := do
  let r ← deref Kernel.pathRoots root
  freeParts r.path
  kfree root.addr
  modify fun k => k.setPathRoot root.id none

end PathParser

end N00bOS
