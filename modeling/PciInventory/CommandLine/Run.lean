import PciInventory.CommandLine.Arguments
import PciInventory.CommandLine.Failure
import PciInventory.Render
import PciInventory.Snapshot.Source
import PciInventory.Text.LogText

/-!
# A run of the program

A run is a function of the file tree, the environment, the time and the
arguments.  It reads the settings, then the names, then builds the topology
from a snapshot or the running system, then saves it if asked to, and prints
only after all of that has succeeded.
-/

namespace PciInventory.CommandLine

def versionText : String :=
  "pcitop 0.1.0\n"

def helpText : String :=
  "List the PCI devices of this machine or of a captured snapshot\n\n" ++
  "Usage: pcitop [OPTIONS]\n\n" ++
  "Options:\n" ++
  "      --sysfs-root <SYSFS_ROOT>  Root of the sysfs tree to scan " ++
    "(overrides PCITOP_SYSFS_ROOT; default /sys)\n" ++
  "      --pci-ids <PCI_IDS>        pci.ids name database " ++
    "(overrides PCITOP_PCI_IDS)\n" ++
  "      --load <LOAD>              Replay a snapshot instead of scanning " ++
    "the running system\n" ++
  "      --save <SAVE>              Capture the topology to a new snapshot " ++
    "file; an existing file is never replaced\n" ++
  "      --tree                     Show buses as a tree below their " ++
    "bridges\n" ++
  "  -v, --verbose                  Show subsystem, BAR, capability and " ++
    "driver details\n" ++
  "  -n, --numeric                  Show numeric IDs only; skips the name " ++
    "database\n" ++
  "  -h, --help                     Print help\n" ++
  "  -V, --version                  Print version\n"

def misuseText : String :=
  "error: invalid arguments\n\n" ++
  "Usage: pcitop [OPTIONS]\n\n" ++
  "For more information, try '--help'.\n"

structure Outcome where
  code : Nat
  output : String
  report : String
  warnings : List Warning
  tree : FileTree
deriving DecidableEq

def Outcome.log (outcome : Outcome) : List String :=
  outcome.warnings.map fun warning => LogText.text warning.message

/-- The resolver for the database at a path.  Without a readable database every
name is unknown. -/
def loadNames (tree : FileTree) :
    Option Bytes → Names.Resolver × List Warning
  | none => (Names.Resolver.empty, [.noDatabase])
  | some path =>
      match tree.contentAt path with
      | .ok database => (Names.Resolver.ofDatabase database, [])
      | .error error =>
          (Names.Resolver.empty, [.unreadableDatabase path error])

def replay (tree : FileTree) (path : Bytes) (created : UInt64)
    (resolver : Names.Resolver) :
    Except Failure Topology × List Warning :=
  match SnapshotSource.openAt tree path with
  | .error error => (.error (.load path error), [])
  | .ok source =>
      let build :=
        (Topology.scan (SnapshotSource.source created) (tree, source)
          resolver).1
      (build.outcome.mapError (Failure.replay path), build.warnings)

def scanLive (tree : FileTree) (root : Bytes) (resolver : Names.Resolver) :
    Except Failure Topology × List Warning :=
  let build := (Topology.scan (LiveSource.source root) tree resolver).1
  (build.outcome.mapError (Failure.scan root), build.warnings)

def topology (tree : FileTree) (settings : Settings) (options : Options)
    (created : UInt64) (resolver : Names.Resolver) :
    Except Failure Topology × List Warning :=
  match options.load with
  | some path => replay tree path created resolver
  | none => scanLive tree (options.root.getD settings.root) resolver

def saveTo (tree : FileTree) (topology : Topology) (created : UInt64) :
    Option Bytes → Except Failure FileTree
  | none => .ok tree
  | some path =>
      ((SnapshotSource.ofPath path).save tree topology created).mapError
        (Failure.save path)

/-- The rendering that the options ask for and the warnings of its walk. -/
def rendering (topology : Topology) (options : Options) :
    String × List Warning :=
  Render.shown topology ⟨options.numeric, options.verbose⟩ options.tree

def failed (tree : FileTree) (failure : Failure) (warnings : List Warning) :
    Outcome :=
  ⟨1, "", failure.report, warnings, tree⟩

def runOptions (tree : FileTree) (environment : Environment)
    (created : UInt64) (options : Options) : Outcome :=
  match Settings.ofEnvironment tree environment with
  | .error error => failed tree (.settings error) []
  | .ok settings =>
      let (resolver, nameWarnings) :=
        if options.numeric then (Names.Resolver.empty, [])
        else loadNames tree (options.database.or settings.database)
      let built := topology tree settings options created resolver
      let warnings := nameWarnings ++ built.2
      match built.1 with
      | .error failure => failed tree failure warnings
      | .ok topology =>
          match saveTo tree topology created options.save with
          | .error failure => failed tree failure warnings
          | .ok tree =>
              let shown := rendering topology options
              ⟨0, shown.1, "", warnings ++ shown.2, tree⟩

def run (tree : FileTree) (environment : Environment) (created : UInt64)
    (arguments : List Bytes) : Outcome :=
  match request arguments with
  | .help => ⟨0, helpText, "", [], tree⟩
  | .version => ⟨0, versionText, "", [], tree⟩
  | .misuse => ⟨2, "", misuseText, [], tree⟩
  | .run options => runOptions tree environment created options

end PciInventory.CommandLine
