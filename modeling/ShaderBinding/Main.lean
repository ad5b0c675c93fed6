import ShaderBinding.Listing

/-! # Command line

Lists the shader binaries named on the command line: resources on standard output, problems on
standard error.
-/

open ShaderBinding

def readBytes (path : String) : IO (Except String Bytes) := do
  try
    return .ok (← IO.FS.readBinFile path).toList
  catch
    | .noFileOrDirectory .. => return .error FileError.notFound.message
    | .permissionDenied .. => return .error FileError.permissionDenied.message
    | .inappropriateType .. => return .error FileError.isADirectory.message
    | error => return .error (toString error)

def main (paths : List String) : IO UInt32 := do
  let contents ← paths.mapM fun path => return (path, ← readBytes path)
  let read (path : String) := (contents.lookup path).getD (.error FileError.notFound.message)
  let (status, transcript) := Listing.transcribe read paths
  for line in transcript.lines do
    IO.println line
  for notice in transcript.log do
    IO.eprintln notice.render
  return status.toUInt32
