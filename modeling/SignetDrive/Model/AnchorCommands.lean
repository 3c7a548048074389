import SignetDrive.Model.Anchoring

/-!
# Commands on one machine

Commands that anchor a server share the state file: each loads the state of its origin, judges, and
saves by `save_state` of `cli/src/anchors.rs`, without a lock.
-/

namespace SignetDrive
open Client Program

/-- A command that has read its server's epoch and knows the repository. -/
structure AnchorCommand where
  server : HttpServer
  env : AnchorEnv
  serverUrl : String
  served : ServedEpoch
  repo : Option String
  useCache : Bool

def AnchorCommand.origin (cmd : AnchorCommand) : String := normalizeOrigin cmd.serverUrl

inductive Phase where
  | idle
  | loaded (cmd : AnchorCommand) (state : OriginState)
  | judged (cmd : AnchorCommand) (anchoring : Anchoring) (state : OriginState)
  /-- `save_state` has read the file; `all` is what it will write. -/
  | saving (cmd : AnchorCommand) (anchoring : Anchoring) (state : OriginState) (all : Json)
  | written (cmd : AnchorCommand) (anchoring : Anchoring) (state : OriginState) (all : Json)
  | done

structure Machine where
  file : Option Json
  tmp : Option Json
  commands : ℕ → Phase

inductive MachineEvent where
  | load (c : ℕ) (cmd : AnchorCommand)
  | judge (c : ℕ)
  | read (c : ℕ)
  | write (c : ℕ)
  | rename (c : ℕ)

namespace Machine

def setPhase (self : Machine) (c : ℕ) (phase : Phase) : Machine :=
  { self with commands := Function.update self.commands c phase }

/-- One step of one command, with the anchoring that a judgement answers. An event that is not the
command's next does nothing. -/
def step (p : Primitives) (fromStr : String → Except String Json) (self : Machine) (event : MachineEvent) :
    Machine × Option Anchoring :=
  match event with
  | .load c cmd =>
    match self.commands c with
    | .idle => (self.setPhase c (.loaded cmd (loadState self.file cmd.origin)), none)
    | _ => (self, none)
  | .judge c =>
    match self.commands c with
    | .loaded cmd state =>
      match anchorLoaded p fromStr cmd.server cmd.env state cmd.serverUrl cmd.served cmd.repo cmd.useCache
          (⟨[], []⟩ : Session String Unit) with
      | .ok ((anchoring, state'), _) => (self.setPhase c (.judged cmd anchoring state'), some anchoring)
      | .error _ => (self.setPhase c .done, none)
    | _ => (self, none)
  | .read c =>
    match self.commands c with
    | .judged cmd anchoring state =>
      (self.setPhase c (.saving cmd anchoring state (saveState self.file cmd.origin state)), none)
    | _ => (self, none)
  | .write c =>
    match self.commands c with
    | .saving cmd anchoring state all =>
      ({ self.setPhase c (.written cmd anchoring state all) with tmp := some all }, none)
    | _ => (self, none)
  | .rename c =>
    match self.commands c with
    | .written _ _ _ _ =>
      -- a rename without a temporary file fails, with a warning
      match self.tmp with
      | some all => ({ self.setPhase c .done with file := some all, tmp := none }, none)
      | none => (self.setPhase c .done, none)
    | _ => (self, none)

end Machine

end SignetDrive
