import PickleInfra.Backup.Core
import PickleInfra.Python.Str

/-!
# `Deploy.Activation` — the links of the gateway in `deploy-environment.py`

`active_link` and `keygen_link` read what the two managed links select, and `activate_binary` selects a
new release, restarts the unit, and goes back when the unit does not come up. Every guest command either
succeeds and takes effect, or fails and has none; what each one does is given (`Outcomes`).
-/

namespace PickleInfra
namespace Deploy

open Python

/-! ## Guest commands -/

/-- How a command of `pct exec` ended. -/
structure Command where
  returncode : Nat := 0
  stdout : String := ""
deriving DecidableEq, Repr

def Command.ok (c : Command) : Bool := c.returncode = 0

/-- What ends a call: a `Refusal` and its message, or an `IndexError`. -/
inductive Stop where
  | refusal (message : String)
  | index
deriving DecidableEq, Repr

/-- The refusal of `run` when it checks the exit code. -/
def Command.failure (c : Command) : Stop :=
  .refusal s!"command failed (pct, exit {c.returncode})"

/-- `text.strip()` -/
def trim (text : String) : String := String.ofList (Str.strip text.toList)

/-- The output of a checked command. -/
def Command.checked (c : Command) : Except Stop String :=
  if c.ok then .ok c.stdout else .error c.failure

/-! ## The links before a call -/

/-- What a managed link holds. Links are made by `select_link` alone, from names of releases, which have
    no white space around them. -/
structure LinkText where
  text : String
  trimmed : trim (text ++ "\n") = text

/-- What is at the path of a link. -/
inductive GuestPath where
  | absent
  | symlink (target : LinkText)
  | other

/-- What the link at a path selects. -/
def GuestPath.link : GuestPath → Option String
  | .absent         => none
  | .symlink target => some target.text
  | .other          => none

/-- What `active_link` asks the guest: whether the directories are protected, the path of the link,
    whether the target of the link is a file, and the state of the unit. -/
structure LinkView where
  directories : Bool
  path : GuestPath
  targetPresent : Bool
  activeState : Command

def activeLink (releaseDir : String) (prod : Bool) (view : LinkView) : Except Stop (Option String) :=
  if !view.directories then
    .error (.refusal "artifact ancestor directories must be root-owned and protected")
  else match view.path with
  | .symlink target =>
      let value := trim (target.text ++ "\n")
      if ¬ (releaseDir ++ "/").toList <+: value.toList then
        .error (.refusal "active link points outside managed releases")
      else if !view.targetPresent then .error (.refusal "active link target is missing")
      else .ok (some value)
  | .other => .error (.refusal "active artifact path exists but is not a managed symlink")
  | .absent =>
      if prod then .error (.refusal "active artifact link is missing")
      else do
        let state ← view.activeState.checked
        if trim state = "active" then .error (.refusal "active artifact link is missing")
        else .ok none

/-- `hasPath` is whether the target of the configuration has a `keygen_path`; the view is of that path. -/
def keygenLink (hasPath : Bool) (releaseDir : String) (prod : Bool) (view : LinkView) :
    Except Stop (Option String) :=
  if !hasPath then .error (.refusal "gateway target lacks a managed keygen path")
  else activeLink releaseDir prod view

/-! ## The activation -/

/-- What the two links select. -/
structure Links where
  active : Option String
  keygen : Option String
deriving DecidableEq, Repr

inductive RollbackPolicy where
  | compatible
  | fixForward
deriving DecidableEq, Repr

/-- What every guest command of one call of `activate_binary` does, in the order of the source; the
    commands of a branch that is not taken are not asked. -/
structure Outcomes where
  selectActive : Command := {}
  selectKeygen : Command := {}
  undoActive : Command := {}
  restart : Command := {}
  health : Nat → Command := fun _ => {}
  hash : Command := {}
  mainPid : Command := {}
  probe : Command := {}
  restoreActive : Command := {}
  restoreKeygen : Command := {}
  restartBack : Command := {}
  healthBack : Nat → Command := fun _ => {}

/-- A call changes the links, and returns or raises. -/
abbrev Activation (α : Type) : Type := Links → Except Stop α × Links

/-- `a`, and then `f` of what it returned. -/
def Activation.andThen {α β : Type} (a : Activation α) (f : α → Activation β) : Activation β := fun links =>
  match a links with
  | (.ok value, links')   => f value links'
  | (.error stop, links') => (.error stop, links')

def refuse {α : Type} (message : String) : Activation α := fun links => (.error (.refusal message), links)

/-- A checked command that changes no link. -/
def run (c : Command) : Activation String := fun links => (c.checked, links)

/-- `select_link` of the active path. -/
def selectActive (c : Command) (target : String) : Activation Unit := fun links =>
  if c.ok then (.ok (), { links with active := some target }) else (.error c.failure, links)

/-- `select_link` of the keygen path. -/
def selectKeygen (c : Command) (target : String) : Activation Unit := fun links =>
  if c.ok then (.ok (), { links with keygen := some target }) else (.error c.failure, links)

/-- Whether `if value:` is taken, and with what. -/
def truthy (value : Option String) : Option String := value.filter (· ≠ "")

def verifyLocalHealth (probe : Command) : Bool := probe.ok && trim probe.stdout = "200"

/-- One of thirty probes succeeds. -/
def waitHealth (probe : Nat → Command) : Bool := (List.range 30).any fun i => verifyLocalHealth (probe i)

/-- `pid.isdecimal() and int(pid) >= 1` -/
def isPid (pid : String) : Bool :=
  !pid.toList.isEmpty && pid.toList.all (fun c => (Backup.Core.decimal c).isSome) &&
    pid.toList.any (fun c => Backup.Core.decimal c ≠ some 0)

/-- Whether `verify_running_artifact` returns; everything it raises is a `Refusal`. -/
def verifyRunningArtifact (expected : String) (mainPid probe : Command) : Bool :=
  Text.fullmatch Text.isHex 64 64 expected && mainPid.ok && isPid (trim mainPid.stdout) && probe.ok

/-- `stdout.split()[0]` -/
def firstWord (text : String) : Option String := (Str.words text.toList).head?.map String.ofList

/-- Both links select the new release; a keygen link that cannot be switched takes the active one back. -/
def switchLinks (destination : String) (keygen previous : Option String) (o : Outcomes) :
    Activation Unit :=
  (selectActive o.selectActive destination).andThen fun _ =>
    match truthy keygen with
    | none => fun links => (.ok (), links)
    | some keygen => fun links =>
        match selectKeygen o.selectKeygen keygen links with
        | (.ok _, links') => (.ok (), links')
        | (.error stop, links') =>
            match truthy previous with
            | some previous =>
                (selectActive o.undoActive previous).andThen (fun _ links => (.error stop, links)) links'
            | none => (.error stop, links')

/-- The unit is restarted, comes up, and runs the new artifact. -/
def comesUp (o : Outcomes) : Activation Bool :=
  if o.restart.ok && waitHealth o.health then
    (run o.hash).andThen fun output links =>
      match firstWord output with
      | none          => (.error .index, links)
      | some expected => (.ok (verifyRunningArtifact expected o.mainPid o.probe), links)
  else fun links => (.ok false, links)

/-- The previous links are selected again. -/
def rollBack (previous : String) (previousKeygen : Option String) (o : Outcomes) : Activation Unit :=
  (selectActive o.restoreActive previous).andThen fun _ =>
    (match truthy previousKeygen with
      | some previousKeygen => selectKeygen o.restoreKeygen previousKeygen
      | none                => fun links => (.ok (), links)).andThen fun _ =>
        (run o.restartBack).andThen fun _ =>
          if !waitHealth o.healthBack then
            refuse "health failed; previous artifact restored but its health failed"
          else refuse "health failed; previous artifact restored"

def activateBinary (destination : String) (keygen previous previousKeygen : Option String)
    (policy : RollbackPolicy) (o : Outcomes) : Activation Unit :=
  (switchLinks destination keygen previous o).andThen fun _ =>
    (comesUp o).andThen fun up =>
      if up then fun links => (.ok (), links)
      else match truthy previous, policy with
        | some previous, .compatible => rollBack previous previousKeygen o
        | _, _ => refuse "health failed; fix-forward required, selected artifact retained"

/-- The names of `install_binary`. -/
def releaseName (releaseDir binary commit : String) : String := releaseDir ++ "/" ++ binary ++ "-" ++ commit

end Deploy
end PickleInfra
