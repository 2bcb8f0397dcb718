import CodeAtlas.Command.Basic
import CodeAtlas.Proofs.Results

/-!
# What arguments give

Whatever is given to a command has been accepted by a switch of that name.  So a root that is
given is never empty.
-/

namespace CodeAtlas

namespace Command

/-- Whether a switch takes a value. -/
def Arity.Accepts (value : String) : Arity → Prop
  | .once accepts => accepts value = true
  | .flag | .repeated => True

/-- Every value that is given has been accepted by one of some switches. -/
def Given.IsAccepted (given : Given) (switches : List Switch) : Prop :=
  ∀ entry ∈ given.switches, ∃ switch ∈ switches, switch.long = entry.1 ∧
    switch.arity.Accepts entry.2

namespace Reading

variable {reading next : Reading} {switch : Switch} {switches : List Switch} {given : Given}

/-- What has been read of the values of some switches. -/
structure IsSound (reading : Reading) (switches : List Switch) : Prop where
  switches_eq : reading.switches = switches
  accepted : reading.given.IsAccepted switches
  pending : ∀ switch, reading.pending = some switch → switch ∈ switches

theorem isSound_start (switches : List Switch) (most : Nat) (versioned : Bool) :
    (start switches most versioned).IsSound switches :=
  ⟨rfl, fun _ member => absurd member List.not_mem_nil, nofun⟩

section

variable (sound : reading.IsSound switches)

include sound

theorem IsSound.accept {value : String} (member : switch ∈ switches)
    (success : reading.accept switch value = .ok next) : next.IsSound switches := by
  have taken (accepts : switch.arity.Accepts value)
      (same : next = { reading with
        given := reading.given.addSwitch switch.long value, pending := none }) :
      next.IsSound switches := by
    subst same
    refine ⟨sound.switches_eq, fun entry isGiven => ?_, nofun⟩
    rcases List.mem_append.mp isGiven with old | new
    · exact sound.accepted entry old
    · rw [List.mem_singleton.mp new]
      exact ⟨switch, member, rfl, accepts⟩
  rw [Reading.accept] at success
  cases arity : switch.arity with
  | flag =>
      simp only [arity] at success
      split at success <;> cases success
      exact taken (by rw [arity]; trivial) rfl
  | repeated =>
      simp only [arity] at success
      cases success
      exact taken (by rw [arity]; trivial) rfl
  | once accepts =>
      simp only [arity] at success
      split at success
      next => cases success
      next free =>
        cases success
        have accepted : accepts value = true := by
          rw [Bool.or_eq_true, not_or] at free
          simpa using free.2
        exact taken (by rw [arity]; exact accepted) rfl

theorem IsSound.enter {beside : Option String} (member : switch ∈ switches)
    (success : reading.enter switch beside = .ok next) : next.IsSound switches := by
  rw [Reading.enter.eq_def] at success
  split at success
  next => exact sound.accept member success
  next => cases success
  next => exact sound.accept member success
  next =>
    cases success
    exact ⟨sound.switches_eq, sound.accepted, fun _ same => Option.some.inj same ▸ member⟩

theorem IsSound.mem_of_find? {searched : Switch → Bool}
    (found : reading.switches.find? searched = some switch) : switch ∈ switches :=
  sound.switches_eq ▸ List.mem_of_find?_eq_some found

theorem IsSound.enterLong {text : List Char} (success : reading.enterLong text = .ok next) :
    next.IsSound switches := by
  rw [Reading.enterLong] at success
  split at success
  split at success
  next found => exact sound.enter (sound.mem_of_find? found) success
  next => cases success

end

theorem IsSound.enterShorts {names : List Char} (sound : reading.IsSound switches)
    (success : reading.enterShorts names = .ok next) : next.IsSound switches := by
  induction names generalizing reading with
  | nil =>
      cases success
      exact sound
  | cons name rest hypothesis =>
      rw [Reading.enterShorts] at success
      split at success
      next => cases success
      next found =>
        have member := sound.mem_of_find? found
        split at success
        next =>
          obtain ⟨entered, isEntered, later⟩ := bind_eq_ok_iff.mp success
          exact hypothesis (sound.enter member isEntered) later
        next => exact sound.enter member success

/-- Reading one argument keeps what is given acceptable. -/
theorem IsSound.read {argument : String} (sound : reading.IsSound switches)
    (success : reading.read argument = .ok next) : next.IsSound switches := by
  rw [Reading.read] at success
  split at success
  next waiting =>
    split at success
    next => cases success
    next => exact sound.accept (sound.pending _ waiting) success
  next =>
    split at success
    next =>
      rw [Reading.enterPositional] at success
      split at success
      next =>
        cases success
        exact ⟨sound.switches_eq, sound.accepted, sound.pending⟩
      next => cases success
    next =>
      split at success
      next =>
        cases success
        exact ⟨sound.switches_eq, sound.accepted, sound.pending⟩
      next => exact sound.enterLong success
      next => exact sound.enterShorts success
      next => cases success

theorem IsSound.finish (sound : reading.IsSound switches)
    (success : reading.finish = .ok given) : given.IsAccepted switches := by
  rw [Reading.finish] at success
  split at success <;> cases success
  exact sound.accepted

theorem IsSound.readAll {arguments : List String} (sound : reading.IsSound switches)
    (success : reading.readAll arguments = .ok given) : given.IsAccepted switches := by
  rw [Reading.readAll] at success
  obtain ⟨last, reads, finishes⟩ := bind_eq_ok_iff.mp success
  clear success
  induction arguments generalizing reading with
  | nil =>
      cases reads
      exact sound.finish finishes
  | cons argument rest hypothesis =>
      rw [List.foldlM_cons] at reads
      obtain ⟨between, first, later⟩ := bind_eq_ok_iff.mp reads
      exact hypothesis (sound.read first) later

theorem IsSound.readBefore {arguments rest : List String} (sound : reading.IsSound switches)
    (success : reading.readBefore arguments = .ok (given, rest)) : given.IsAccepted switches := by
  induction arguments generalizing reading with
  | nil =>
      obtain ⟨finished, finishes, same⟩ := bind_eq_ok_iff.mp success
      cases same
      exact sound.finish finishes
  | cons argument later hypothesis =>
      rw [Reading.readBefore] at success
      split at success
      next =>
        cases success
        exact sound.accepted
      next =>
        obtain ⟨between, first, others⟩ := bind_eq_ok_iff.mp success
        exact hypothesis (sound.read first) others

end Reading

/-- What is given of a switch has been accepted by one of that name. -/
theorem Given.IsAccepted.value? {given : Given} {switches : List Switch} {long value : String}
    (accepted : given.IsAccepted switches) (isValue : given.value? long = some value) :
    ∃ switch ∈ switches, switch.long = long ∧ switch.arity.Accepts value := by
  obtain ⟨front, back, split, -⟩ := List.lookup_eq_some_iff.mp isValue
  exact accepted (long, value) (by simp [split])

/-- No command has another switch for the root. -/
theorem ne_empty_of_root {verb : Verb} {switch : Switch} {value : String}
    (member : switch ∈ verb.switches ++ sharedSwitches) (isRoot : switch.long = "root")
    (accepts : switch.arity.Accepts value) : value ≠ "" := by
  rcases List.mem_append.mp member with own | shared
  · have none : ∀ other ∈ verb.switches, other.long ≠ "root" := by
      cases verb <;> simp [Verb.switches, textSwitch]
    exact absurd isRoot (none switch own)
  · simp only [sharedSwitches, List.mem_cons, List.not_mem_nil, or_false] at shared
    obtain rfl | rfl | rfl := shared
    · exact absurd isRoot (by decide)
    · simpa [pathSwitch, Arity.Accepts] using accepts
    · exact absurd isRoot (by decide)

end Command

open Command

/-- The root that arguments give is not empty. -/
theorem Invocation.root_ne_empty {arguments : List String} {invocation : Invocation}
    (parsed : ofArguments arguments = .ok invocation) : invocation.root ≠ "" := by
  rw [ofArguments] at parsed
  obtain ⟨⟨outer, rest⟩, before, parsed⟩ := bind_eq_ok_iff.mp parsed
  have outerAccepted := (Reading.isSound_start sharedSwitches 0 true).readBefore before
  dsimp only at parsed
  split at parsed
  next => cases parsed
  next name rest =>
    split at parsed
    next => cases parsed
    split at parsed
    next => cases parsed
    next verb isVerb =>
      obtain ⟨inner, reads, parsed⟩ := bind_eq_ok_iff.mp parsed
      have innerAccepted := (Reading.isSound_start (verb.switches ++ sharedSwitches)
        verb.mostPositional false).readAll reads
      split at parsed
      next => cases parsed
      next command isCommand =>
        cases parsed
        dsimp only
        cases innerRoot : inner.value? "root" with
        | some value =>
            obtain ⟨switch, member, isRoot, accepts⟩ := innerAccepted.value? innerRoot
            exact ne_empty_of_root member isRoot accepts
        | none =>
            cases outerRoot : outer.value? "root" with
            | some value =>
                obtain ⟨switch, member, isRoot, accepts⟩ := outerAccepted.value? outerRoot
                exact ne_empty_of_root (List.mem_append_right verb.switches member) isRoot accepts
            | none => exact fun same => absurd same (by decide)

end CodeAtlas
