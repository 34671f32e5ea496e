import EtherChip.Bench.Demo

/-!
# A run of the bench

A chip is powered on, takes over a saved state if one is named, runs a demo, and is saved if that
is asked for. Any failure ends the run with code 1, with what was printed before. How the options are
read from a command line, and what is logged meanwhile, does not matter to a run and is left out.
-/
namespace EtherChip.Bench

/-- What a run of the bench does. -/
structure Options where
  model : ChipModel := .w5500
  demo : Demo := .regs
  /-- Address for the chip's sockets, if not the default one. -/
  bind : Option Ipv4 := none
  loadState : Option String := none
  saveState : Option String := none
  /-- Steps to wait for a reply. -/
  maxSteps : Nat := 200000
  deriving DecidableEq, Repr, Inhabited

structure Report where
  exitCode : UInt32
  output : String := ""
  deriving DecidableEq, Repr

namespace Options

def config (o : Options) : NetConfig :=
  let defaults : NetConfig := {}
  { defaults with bindAddr := o.bind.getD defaults.bindAddr }

variable {ν : Type} [NetHost ν]

def startChip (o : Options) (z : Compression) (storage : Storage) : StateM ν (Except ChipError Chip) :=
  let chip := Chip.powerOn o.model o.config
  match o.loadState with
  | none => return .ok chip
  | some path => chip.loadFrom z storage path

/-- A run with a given patience from power-on to its end, if it comes to one. -/
def run (o : Options) (z : Compression) (patience : Nat) (storage : Storage) : RunM ν (Report × Storage) := do
  match ← RunM.ending (o.startChip z storage) with
  | .error _ => return ({ exitCode := 1 }, storage)
  | .ok chip =>
    match ← ((o.demo.run o.maxSteps).run patience).run chip with
    | (.error _, _) => return ({ exitCode := 1 }, storage)
    | (.ok output, chip) =>
      match o.saveState with
      | none => return ({ exitCode := 0, output }, storage)
      | some path =>
        match chip.saveTo z storage path with
        | .error _ => return ({ exitCode := 1, output }, storage)
        | .ok storage => return ({ exitCode := 0, output }, storage)

end Options

end EtherChip.Bench
