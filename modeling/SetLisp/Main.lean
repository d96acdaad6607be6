import SetLisp.CommandLine.Run

namespace SetLisp.CommandLine

def openFailureOf : IO.Error → OpenFailure
  | .noFileOrDirectory .. => ⟨2, "No such file or directory"⟩
  | .permissionDenied .. => ⟨13, "Permission denied"⟩
  | .inappropriateType .. => ⟨21, "Is a directory"⟩
  | error => ⟨5, toString error⟩

def readVariables : IO Variables := do
  let names := [levelVariable, keepGoingVariable]
  let values ← names.mapM fun name => IO.getEnv name
  return (names.zip values).filterMap fun (name, value) => value.map (name, ·)

def openNamed (arguments : List String) : IO (Except OpenFailure (List UInt8)) := do
  match readArguments arguments with
  | .ok (.run options) =>
      try
        let bytes ← IO.FS.readBinFile (Path.normal options.path)
        return .ok bytes.toList
      catch error => return .error (openFailureOf error)
  | _ => return .ok []

end SetLisp.CommandLine

open SetLisp

def main (arguments : List String) : IO UInt32 := do
  let opened ← CommandLine.openNamed arguments
  let environment ← CommandLine.readVariables
  let outcome := CommandLine.run environment (fun _ => opened) arguments
  IO.print outcome.stdout
  IO.eprint outcome.stderr
  return outcome.status.toUInt32
