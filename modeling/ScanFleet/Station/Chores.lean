import ScanFleet.Fleet.Boot
import ScanFleet.Station.Basic

set_option autoImplicit false

/-! # Chores side by side

The rules that a tick finds due are carried out side by side, while the station goes on to other things.
What a station is told to do is a chore. A chore is a list of deeds, each of which is done at once, and
between any two deeds of a chore the deeds of others may be done. To move a device takes several deeds:
the target is looked for, then the device, whose row is read from storage if the fleet does not know it.
The device sets out, which files it with its target, it leaves its former job, its row is written as it
was when it set out, and it joins the job of the target. A job is built in the steps that the builds of a
starting fleet take. The operations of a `Station` are the chores that are done without anything in
between. -/

namespace ScanFleet

/-- A rule that is carried out, and what for. -/
structure Firing where
  rule : Assignment
  /-- The instance whose completion fired the rule. -/
  completed : Option String := none
  force : Bool := false

/-! ## Deeds -/

/-- What is done at once. -/
inductive Deed where
  /-- Asks whether the target of a move is defined. -/
  | check (m : Move)
  /-- Asks whether the fleet knows the device of a move. -/
  | search (m : Move)
  /-- Reads the row of a device from storage. -/
  | fetch (m : Move)
  /-- Registers a device as its row says, unless the fleet knows it by now. -/
  | enlist (row : Device) (target : String)
  /-- Files a device with its target, if it is not there already. -/
  | setOut (m : Move)
  | leave (name uuid : String)
  | write (row : Device)
  | join (m : Move)
  | count (trigger : Trigger)
  /-- Finds the uuids of the devices that a rule is about. -/
  | resolve (firing : Firing)
  /-- Looks for a device of a rule in the fleet, after the ones that are `known` and `unknown` to it. -/
  | seek (firing : Firing) (known : List Device) (unknown : List String) (uuid : String)
      (left : List String)
  /-- Reads the devices that the fleet does not know from storage. -/
  | gather (firing : Firing) (known : List Device) (unknown : List String)
  | fireByHand (id : UInt32) (force : Bool)
  | complete (name : String)
  | startUp (today : Date) (second : Nat)
  /-- Looks up a group that a rule of a startup pass is about, after those that were `found` and before
      the groups of the rules that are `left`. -/
  | muster (rules : List Assignment) (found : List (String × List String)) (name : String)
      (left : List Assignment)
  /-- Finds where the rules of a startup pass place the devices that work for no instance. -/
  | deploy (rules : List Assignment) (found : List (String × List String))
  /-- Tells the listener that devices were released. -/
  | tellReleased
  | define (definition : Instance)
  /-- Makes the next step of the build of a job. -/
  | build (definition : Instance) (stage : BuildStage)
  | replace (definition : Instance) (old : String)
  /-- Stops the job of a replaced instance and begins to build that of the new one. -/
  | rebuild (former : Option Instance) (job : Option Job) (definition : Instance)
  | remove (name : String)
  | refreshSize
  | drop (uuid : String)
  | locate (uuid : String) (place : Coordinate)

/-- What a deed comes to. -/
structure Upshot where
  station : Station
  /-- What is to be done next. -/
  next : List Deed := []
  /-- How many moves came to an end. -/
  moved : Nat := 0

namespace Firing

/-- The moves of the devices that a rule is about. -/
def moves (firing : Firing) (devices : List Device) : List Deed :=
  (devices.filter (firing.rule.moves firing.completed firing.force)).map fun d =>
    .check ⟨d.uuid, firing.rule.target⟩

/-- The search for the devices of a rule goes on with those that are left. -/
def goOn (firing : Firing) (known : List Device) (unknown : List String) : List String → List Deed
  | uuid :: left => [.seek firing known unknown uuid left]
  | [] => if unknown = [] then firing.moves known else [.gather firing known unknown]

end Firing

namespace Deed

/-- The deeds that take a device off its instance, if it is on one. -/
def leaving (name : Option String) (uuid : String) : List Deed := name.toList.map (.leave · uuid)

/-- Moves that count for a trigger each. -/
def moving (trigger : Option Trigger) (moves : List Move) : List Deed :=
  moves.flatMap fun m => trigger.toList.map .count ++ [.check m]

/-- The groups of the rules that are left are looked up, each once, before devices are placed. -/
def mustering (rules : List Assignment) (found : List (String × List String)) :
    List Assignment → List Deed
  | [] => [.deploy rules found]
  | a :: left =>
    match a.scope with
    | .group name =>
      if (found.lookup name).isSome then mustering rules found left
      else [.muster rules found name left]
    | _ => mustering rules found left

/-- Does a deed, unless it hangs. -/
def perform (s : Station) : Deed → Option Upshot
  | check m =>
    some { station := s, next := if s.fleet.definitions.has m.target then [.search m] else [] }
  | search m =>
    some { station := s, next := if s.fleet.devices.has m.uuid then [.setOut m] else [.fetch m] }
  | fetch m =>
    match s.fleet.storage.device? m.uuid with
    | .ok (some row) => some { station := s, next := [.enlist row m.target] }
    | _ => some { station := s }
  | enlist row target =>
    let devices :=
      if s.fleet.devices.has row.uuid then s.fleet.devices else s.fleet.devices.insert row
    some { station := { s with fleet := { s.fleet with devices } }
           next := [.setOut ⟨row.uuid, target⟩] }
  | setOut m =>
    match s.fleet.devices.get? m.uuid with
    | none => some { station := s }
    | some device =>
      if device.worksFor m.target then some { station := s, moved := 1 }
      else
        let moved := device.assign (some m.target)
        let devices := s.fleet.devices.insert moved
        some { station := { s with fleet := { s.fleet with devices } }
               next := leaving device.instanceName m.uuid ++ [.write moved, .join m] }
  | leave name uuid => some { station := { s with fleet := s.fleet.detach (some name) uuid } }
  | write row =>
    match s.fleet.storage.write row with
    | .hangs => none
    | .failed => some { station := s }
    | .done storage => some { station := { s with fleet := { s.fleet with storage } } }
  | join m =>
    let fleet := (s.fleet.attach (some m.target) m.uuid).countReassignment
    some { station := { s with fleet }, moved := 1 }
  | count trigger => some { station := { s with fleet := s.fleet.countTrigger trigger } }
  | resolve firing =>
    match firing.rule.scope with
    | .device uuid => some { station := s, next := firing.goOn [] [] [uuid] }
    | .group name =>
      match s.fleet.storage.group? name with
      | .error _ => some { station := s }
      | .ok group => some { station := s, next := firing.goOn [] [] ((group.map (·.members)).getD []) }
    | .unspecified =>
      some { station := s, next := if firing.force then firing.moves s.fleet.devices.rows else [] }
  | seek firing known unknown uuid left =>
    match s.fleet.devices.get? uuid with
    | some device => some { station := s, next := firing.goOn (known ++ [device]) unknown left }
    | none => some { station := s, next := firing.goOn known (unknown ++ [uuid]) left }
  | gather firing known unknown =>
    match s.fleet.storage.devicesAmong unknown with
    | .error _ => some { station := s }
    | .ok stored => some { station := s, next := firing.moves (known ++ stored) }
  | fireByHand id force =>
    match s.schedule.rule? id with
    | none => some { station := s }
    | some rule =>
      some { station := { s with fleet := s.fleet.countTrigger .manual }
             next := [.resolve { rule, force }] }
  | complete name =>
    match s.today? with
    | none => some { station := s }
    | some today =>
      some { station := s
             next := (s.schedule.completionRules name today).flatMap fun rule =>
               [.count .completion, .resolve { rule, completed := name }] }
  | startUp today second =>
    let rules := s.schedule.startupRules today second
    some { station := { s with schedule := s.schedule.countPass }
           next := mustering rules [] rules }
  | muster rules found name left =>
    some { station := s
           next := mustering rules ((name, s.fleet.storage.members name) :: found) left }
  | deploy rules found =>
    let members name := (found.lookup name).getD []
    some { station := s, next := moving (some .startup) (s.fleet.placementsAmong members rules) }
  | tellReleased =>
    match s.listener, s.today? with
    | .nobody, _ => some { station := s }
    | .log, _ => some { station := { s with log := s.log ++ ["released"] } }
    | .schedule, none => some { station := s }
    | .schedule, some today => some { station := s, next := [.startUp today s.localSecond] }
  | define definition =>
    let definitions := s.fleet.definitions.insert definition
    some { station := { s with fleet := { s.fleet with definitions } }
           next := [.build definition (.opening definition)] }
  | build definition stage =>
    match stage with
    | .ended (.ok job) =>
      some { station := { s with fleet := s.fleet.register job }, next := [.refreshSize] }
    | .ended (.error (.failed _)) =>
      some { station := { s with fleet := s.fleet.countBuildFailure } }
    | .ended (.error _) => some { station := s }
    | stage =>
      let (stage, lookups) := stage.step s.fleet definition s.now
      some { station := { s with fleet := { s.fleet with lookups } }
             next := [.build definition stage] }
  | replace definition old =>
    let other := some definition.name
    let withdrawn := s.fleet.withdraw old other
    let definitions := withdrawn.definitions.insert definition
    some { station := { s with fleet := { withdrawn with definitions } }
           next := (s.fleet.shifted old other).map .write
             ++ [.rebuild (s.fleet.definitions.get? old) (s.fleet.jobs.get? old) definition] }
  | rebuild former job definition =>
    let lookups := (former.toList ++ [definition]).foldl Lookups.forget s.fleet.lookups
    let retired := s.fleet.retired ++ (job.map Job.stop).toList
    some { station := { s with fleet := { s.fleet with lookups, retired } }
           next := [.build definition (.opening definition)] }
  | remove name =>
    if !s.fleet.definitions.has name && !s.fleet.jobs.has name then some { station := s }
    else
      let retired := s.fleet.retired ++ ((s.fleet.jobs.get? name).map Job.stop).toList
      some { station := { s with fleet := { s.fleet.withdraw name none with retired } }
             next := (s.fleet.shifted name none).map .write ++ [.refreshSize, .tellReleased] }
  | refreshSize => some { station := { s with fleet := s.fleet.refreshSize } }
  | drop uuid =>
    match s.fleet.devices.get? uuid with
    | none => some { station := s }
    | some device =>
      let devices := s.fleet.devices.erase uuid
      some { station := { s with fleet := { s.fleet with devices } }
             next := leaving device.instanceName uuid ++ [.tellReleased] }
  | locate uuid place => some { station := (s.onFleet (s.fleet.locate uuid place s.now)).2 }

end Deed

/-! ## Chores -/

/-- What a station is told to do. -/
inductive Instruction where
  | reassign (m : Move)
  /-- Carries out a rule, which need not be in force. -/
  | carryOut (firing : Firing)
  | fireByHand (id : UInt32) (force : Bool)
  | complete (name : String)
  | startUp (today : Date) (second : Nat)
  | addInstance (definition : Instance)
  | replaceInstance (definition : Instance) (old : String)
  | removeInstance (name : String)
  | removeDevice (uuid : String)
  | locate (uuid : String) (place : Coordinate)

/-- The first deed of an instruction. -/
def Instruction.opening : Instruction → Deed
  | reassign m => .check m
  | carryOut firing => .resolve firing
  | fireByHand id force => .fireByHand id force
  | complete name => .complete name
  | startUp today second => .startUp today second
  | addInstance definition => .define definition
  | replaceInstance definition old => .replace definition old
  | removeInstance name => .remove name
  | removeDevice uuid => .drop uuid
  | locate uuid place => .locate uuid place

/-- What is left to do of an instruction, and how many moves of it have come to an end. -/
structure Chore where
  deeds : List Deed
  moved : Nat := 0

/-- A station and the chores that it was given. -/
structure Bustle where
  station : Station
  chores : List Chore := []

/-- What can happen in the bustle. -/
inductive Happening where
  /-- The station is told to do something. -/
  | tell (instruction : Instruction)
  /-- The schedule ticks, and each rule that is due becomes a chore. -/
  | tick (today : Date) (second : Nat)
  /-- The next deed of a chore is done. -/
  | turn (k : Nat)
  | meanwhile (now : Instant) (localOffset : Int) (listener : Listener) (schedule : Schedule)
  /-- Storage changes from outside. -/
  | restock (tables : Tables) (down : List StorageAccess) (lookups : Lookups)

namespace Bustle

/-- Adds a chore with a first deed. -/
def begin (b : Bustle) (deed : Deed) : Bustle := { b with chores := b.chores ++ [{ deeds := [deed] }] }

/-- Does the next deed of a chore. One that hangs stays where it is. -/
def turn (b : Bustle) (k : Nat) : Bustle :=
  match b.chores[k]? with
  | some ⟨deed :: rest, moved⟩ =>
    match deed.perform b.station with
    | some upshot =>
      { station := upshot.station
        chores := b.chores.set k ⟨upshot.next ++ rest, moved + upshot.moved⟩ }
    | none => b
  | _ => b

/-- The chores take turns as the list says. -/
def turns (b : Bustle) (ks : List Nat) : Bustle := ks.foldl turn b

/-- Counts the rules that a tick finds due, and begins to carry each of them out. -/
def tick (b : Bustle) (today : Date) (second : Nat) : Bustle :=
  let (due, schedule) := b.station.schedule.tick today second
  let fleet := due.foldl (fun f _ => f.countTrigger .clock) b.station.fleet
  { station := { b.station with schedule, fleet }
    chores := b.chores ++ due.map fun rule => { deeds := [.resolve { rule }] } }

/-- What becomes of a bustle. -/
def undergo (b : Bustle) : Happening → Bustle
  | .tell instruction => b.begin instruction.opening
  | .tick today second => b.tick today second
  | .turn k => b.turn k
  | .meanwhile now localOffset listener schedule =>
    { b with station := { b.station with now, localOffset, listener, schedule } }
  | .restock tables down lookups =>
    let storage := { b.station.fleet.storage with tables, down }
    { b with station := { b.station with fleet := { b.station.fleet with storage, lookups } } }

/-- The states of a run, the first and the last one among them. -/
def states (b : Bustle) : List Happening → List Bustle
  | [] => [b]
  | happening :: rest => b :: (b.undergo happening).states rest

/-- Every chore is done. -/
def AtRest (b : Bustle) : Prop := ∀ chore ∈ b.chores, chore.deeds = []

instance (b : Bustle) : Decidable b.AtRest :=
  inferInstanceAs (Decidable (∀ chore ∈ b.chores, chore.deeds = []))

/-- How many moves came to an end, if all chores are done. -/
def reckon : List Chore → Option Nat
  | [] => some 0
  | ⟨[], moved⟩ :: rest => (reckon rest).map (moved + ·)
  | _ :: _ => none

/-- Chores that take a number of turns each, one after the other. -/
def spells (b : Bustle) (spell : Nat) (ks : List Nat) : Bustle :=
  ks.foldl (fun b k => b.turns (.replicate spell k)) b

/-- In each round all chores have their spell, until all are done or the rounds are over. -/
def rounds (b : Bustle) (spell : Nat) : Nat → Bustle
  | 0 => b
  | n + 1 =>
    if b.AtRest then b else (b.spells spell (.range b.chores.length)).rounds spell n

end Bustle

/-- Fires the clock rules that are due at a local date and second, and carries them out side by side, in
    rounds. -/
def Station.tickInRounds (s : Station) (today : Date) (second spell rounds : Nat) :
    Station.Tick × Station :=
  let b := (Bustle.tick { station := s } today second).rounds spell rounds
  (⟨b.chores.length, Bustle.reckon b.chores⟩, b.station)

end ScanFleet
