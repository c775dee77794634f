import MailFetch.Program

/-! # The program at work

What a call of the program takes from the file system is put into a file tree, and what the call
does to that tree is done to the file system. Between the steps of a scheduler real time passes.
There is no network here, so that a transfer ends like one whose server does not answer, and the
free space is not known, so that nothing is downloaded before it is asked for. -/

namespace MailFetch

/-- A path as it is written from the top. -/
def Path.written (p : Path) : String := "/" ++ "/".intercalate p

/-- What lies at a path of the file system. -/
def entryAt (p : Path) : IO (Option Entry) := do
  match ← (IO.FS.realPath (p.written ++ "/.")).toBaseIO with
  | .ok _ => return some .dir
  | .error _ =>
    match ← (IO.FS.readBinFile p.written).toBaseIO with
    | .ok content => return some (.file content.toList)
    | .error _ => return none

/-- The tree with all that lies on the way to a path. -/
def observe (t : FileTree) (p : Path) : IO FileTree :=
  ((List.range p.length).map fun n => p.take (n + 1)).foldlM (fun t q => do
    match ← entryAt q with
    | some e => return t.set q e
    | none => return t) t

/-- Do to the file system what makes the second tree of the first. -/
def carryOut (before after : FileTree) : IO Unit := do
  for (p, _) in before.listing do
    unless after.contains p do IO.FS.removeFile p.written
  for (p, e) in after.listing do
    unless before.get? p == some e do
      match e with
      | .dir => IO.FS.createDirAll p.written
      | .file content => IO.FS.writeBinFile p.written ⟨content.toArray⟩
      | .link _ => pure ()

/-- The files that a call with these words may look at, as they are written. -/
def filesOfInterest (d : Directories) (words : List String) : List String :=
  let asked := match CommandLine.parse words with
    | .ok line =>
      line.config.toList ++ match line.command with
        | .run seed _ _ _ => [seed]
        | .showConfig _ => []
    | .error _ => []
  asked ++ Config.candidates d ++ [d.logFile]

/-- What surrounds a call with these words. -/
def look (words : List String) : IO Surroundings := do
  let directories : Directories := {
    home := (← IO.getEnv "HOME").getD "/"
    data := ← IO.getEnv "XDG_DATA_HOME"
    config := ← IO.getEnv "XDG_CONFIG_HOME"
    cache := ← IO.getEnv "XDG_CACHE_HOME" }
  let workingDir := Path.read [] ((← IO.getEnv "PWD").getD "/")
  let read := fun (t : FileTree) (file : String) => observe t (Path.read workingDir file)
  let files ← (filesOfInterest directories words).foldlM read (← observe .empty workingDir)
  let e : Surroundings := { directories := directories, workingDir := workingDir, files := files }
  let line := (CommandLine.parse words).toOption
  match Config.load directories e.look (line.bind (·.config)) with
  | .ok c => return { e with files := ← read files c.cacheDir }
  | .error _ => return e

/-- Let a scheduler work to its end, in real time. -/
partial def attend (start : Nat) (r : Run) : IO Run := do
  if r.ended then return r
  match r.nextTime with
  | some t =>
    IO.sleep (start + t - (← IO.monoMsNow)).toUInt32
    let (text, r) := r.step
    IO.print text
    (← IO.getStdout).flush
    attend start r
  | none =>
    IO.sleep 1000
    attend start (r.waitUntil ((← IO.monoMsNow) - start))

end MailFetch

open MailFetch in
/-- **A call of the program.** -/
def main (words : List String) : IO UInt32 := do
  let e ← look words
  match begin? e words none with
  | .done o =>
    o.complaints.forM IO.eprintln
    IO.print o.output
    carryOut e.files o.files
    return o.code.toUInt32
  | .running greeting complaints r =>
    complaints.forM IO.eprintln
    IO.print greeting
    carryOut e.files r.files
    let finished ← attend (← IO.monoMsNow) r
    carryOut r.files finished.files
    return 0
