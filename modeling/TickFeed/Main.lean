import TickFeed.Catalog.Place
import TickFeed.Node.Basic

/-! # The program

The node reads ticks from its standard input, one a line, until the input ends,
and then writes what became of them. Meanwhile it writes its statistics and
loads its catalog again at their intervals. -/

namespace TickFeed.Program

def readEnvironment : IO Environment := do
  let given ← NodeConfig.variableNames.filterMapM fun name => do
    return (← IO.getEnv name).map (name, ·)
  return fun name => given.lookup name

def readPlace (path : String) : IO Place := do
  let folder ← IO.FS.realPath path
  if !(← folder.isDir) then return .noFolder
  let entries ← folder.readDir
  let files ← entries.toList.filterMapM fun entry => do
    let data ← entry.path.metadata
    match data.type with
    | .file =>
      return some
        ⟨entry.fileName, data.modified.sec * 1000000000 + data.modified.nsec.toNat⟩
    | _ => return none
  return .folder files

def readSource (path : String) : IO (Except CatalogError CatalogSource) := do
  let place ← try readPlace path catch _ => pure .noFolder
  match place.source path with
  | .error e => return .error e
  | .ok file =>
    let data ← try pure (some (← IO.FS.readBinFile file).toList) catch _ => pure none
    return .ok (.ofFile file data)

def printStatistics (node : Node) : IO Unit := do
  for (name, value) in node.bridge.counters do
    IO.println (name ++ "=" ++ toString value.toNat)
  for (symbol, count) in node.feed.audience.counts.top 5 do
    IO.println (symbol ++ " " ++ toString count)

/-- When the work that comes again is due next, in milliseconds of a clock that
never goes back. -/
structure Schedule where
  statistics : Nat
  refresh : Nat

/-- The first time is one interval from now. -/
def Schedule.start (config : NodeConfig) : IO Schedule := do
  let now ← IO.monoMsNow
  return ⟨now + config.statsInterval.milliseconds, now + config.refreshInterval.milliseconds⟩

/-- Do the work that is due. A catalog that fails to load again stays in use. -/
def Schedule.work (config : NodeConfig) (due : Schedule) (node : Node) :
    IO (Schedule × Node) := do
  let now ← IO.monoMsNow
  let mut due := due
  let mut node := node
  if due.statistics ≤ now then
    printStatistics node
    due := { due with statistics := now + config.statsInterval.milliseconds }
  if due.refresh ≤ now then
    if let some path := config.catalogPath then
      node := (node.load (← readSource path)).1
    due := { due with refresh := now + config.refreshInterval.milliseconds }
  return (due, node)

/-- Submit the lines of the input as they come; `rest` is the beginning of a line
that is not complete. Between two pieces of the input is the time for what is
due. -/
partial def readInput (config : NodeConfig) (input : IO.FS.Stream) (due : Schedule)
    (rest : List UInt8) (reader : Reader Node) : IO (Reader Node) := do
  let chunk ← input.read 65536
  if chunk.isEmpty then return reader.readLine Node.submitLive rest
  let pieces := Text.splitLines (rest ++ chunk.toList)
  let reader := pieces.dropLast.foldl (Reader.readLine Node.submitLive) reader
  let (due, node) ← due.work config reader.target
  readInput config input due (pieces.getLastD []) { reader with target := node }

/-- Read the input to its end, stop, and write what became of it. -/
def serveInput (config : NodeConfig) (node : Node) : IO Unit := do
  let due ← Schedule.start config
  let reader ← readInput config (← IO.getStdin) due [] { target := node }
  let summary := reader.summary
  IO.println ("Input closed lines=" ++ toString summary.lines ++
    " accepted=" ++ toString summary.accepted ++ " dropped=" ++ toString summary.dropped ++
    " unparsable=" ++ toString summary.unparsable)
  printStatistics reader.target.stop

/-- The whole program; the answer is what it leaves to its caller. -/
def run (words : List String) : IO UInt32 := do
  match NodeConfig.read words (← readEnvironment) with
  | .error .displayHelp => IO.println NodeOption.usage; return 0
  | .error e => IO.eprintln ("error: " ++ e.message); return .ofNat e.exitCode
  | .ok config =>
    match Node.create config with
    | .error e => IO.eprintln ("Error: " ++ e.message); return .ofNat e.exitCode
    | .ok node =>
      let source ← node.catalogPath.mapM readSource
      match source with
      | some (.error e) => IO.eprintln e.message
      | _ => pure ()
      serveInput config (node.begin source)
      return 0

end TickFeed.Program

def main (words : List String) : IO UInt32 := TickFeed.Program.run words
