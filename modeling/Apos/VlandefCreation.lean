import Apos.VlanMappings

/-!
# Creating several VLANs

`vlandef -v` handles its VLANs one after the other.  Each of them gets a link on both nodes, a rule
in the cluster configuration and a line in the mapping file, and the script exits at the first
command that fails.  Nothing that has been done for the VLAN at hand is undone on these exits.
-/

namespace Apos.VlanMapping

open LineEdit ClusterConf DrbdAgent

/-! ## The script -/

/-- What a run changes.  The rules are the adapters that `clusterconf interface --display | grep -w
vlan | grep $INTERFACE` lists. -/
structure World where
  localLinks : List Text
  peerLinks : List Text
  vlanRules : List Text
  mappingLines : List Text
  deriving DecidableEq

structure Vlan where
  name : Text
  tag : Text
  deriving DecidableEq

/-- How the commands for one VLAN end.  On a BSP node `setVlanType` may find the name in use. -/
structure Outcome where
  typeFound : Bool
  localLink : Bool
  peerLink : Bool
  clusterconf : Bool

section Script

variable (tools : Tools) (interface : Text)

def adapterName (vlan : Vlan) : Text :=
  interface ++ '.' :: vlan.tag

/-- The exits of `check_args` and `check_vlantag_params` for a name other than `Public`. -/
def checkArgs (world : World) (vlan : Vlan) (outcome : Outcome) : Option Nat :=
  if ¬isVlanName vlan.name then some 22
  else if outcome.typeFound then some 24
  else if ¬isVlanTag vlan.tag then some 22
  else if world.vlanRules.any fun rule => awkPiece '.' rule 2 == vlan.tag then some 25
  else if ¬isDefined tools world.mappingLines "Public".toList then some 23
  else if isDefined tools world.mappingLines vlan.name then some 24
  else none

/-- `vlandef` and `add_mapping` with the peer node up; a command that fails has no effect. -/
def vlandef (world : World) (vlan : Vlan) (outcome : Outcome) : World × Option Nat :=
  let adapter := adapterName interface vlan
  if ¬outcome.localLink then (world, some 4)
  else
    let linked := { world with localLinks := world.localLinks ++ [adapter] }
    if ¬outcome.peerLink then (linked, some 4)
    else
      let linkedTwice := { linked with peerLinks := world.peerLinks ++ [adapter] }
      if ¬outcome.clusterconf then (linkedTwice, some 5)
      else
        ({ linkedTwice with
            vlanRules := world.vlanRules ++ [adapter]
            mappingLines := world.mappingLines ++ [mappingLine vlan.name adapter] }, none)

def handle (world : World) (vlan : Vlan) (outcome : Outcome) : World × Option Nat :=
  match checkArgs tools world vlan outcome with
  | some status => (world, some status)
  | none => vlandef interface world vlan outcome

/-- The loop of `vlandef_apg`, with the status of an exit in it. -/
def vlandefApg : World → List (Vlan × Outcome) → World × Option Nat
  | world, [] => (world, none)
  | world, (vlan, outcome) :: more =>
    match handle tools interface world vlan outcome with
    | (reached, none) => vlandefApg reached more
    | (reached, some status) => (reached, some status)

/-! ## Runs -/

def World.created (world : World) (vlans : List Vlan) : World where
  localLinks := world.localLinks ++ vlans.map (adapterName interface)
  peerLinks := world.peerLinks ++ vlans.map (adapterName interface)
  vlanRules := world.vlanRules ++ vlans.map (adapterName interface)
  mappingLines := world.mappingLines ++
    vlans.map fun vlan => mappingLine vlan.name (adapterName interface vlan)

theorem created_nil (world : World) : world.created interface [] = world := by
  simp [World.created]

theorem created_cons (world : World) (vlan : Vlan) (vlans : List Vlan) :
    (world.created interface [vlan]).created interface vlans =
      world.created interface (vlan :: vlans) := by
  simp [World.created]

theorem created_of_handle {world reached : World} {vlan : Vlan} {outcome : Outcome}
    (goesOn : handle tools interface world vlan outcome = (reached, none)) :
    reached = world.created interface [vlan] := by
  unfold handle vlandef at goesOn
  split at goesOn
  · cases goesOn
  · dsimp only at goesOn
    split at goesOn
    · cases goesOn
    · split at goesOn
      · cases goesOn
      · split at goesOn
        · cases goesOn
        · obtain ⟨rfl, -⟩ := Prod.mk.inj goesOn
          rfl

theorem handle_unchanged_iff (world : World) (vlan : Vlan) (outcome : Outcome) :
    (handle tools interface world vlan outcome).1 = world ↔
      checkArgs tools world vlan outcome ≠ none ∨ outcome.localLink = false := by
  have longer (adapter : Text) : world.localLinks ++ [adapter] ≠ world.localLinks := by simp
  unfold handle
  cases checked : checkArgs tools world vlan outcome with
  | some found => simp
  | none =>
    cases isLinked : outcome.localLink with
    | false => simp [vlandef, isLinked]
    | true =>
      have links : (vlandef interface world vlan outcome).1.localLinks =
          world.localLinks ++ [adapterName interface vlan] := by
        simp only [vlandef, isLinked]
        cases outcome.peerLink <;> cases outcome.clusterconf <;> rfl
      simp only [ne_eq, not_true_eq_false, false_or, Bool.true_eq_false, iff_false]
      intro same
      rw [same] at links
      exact longer _ links.symm

theorem vlandefApg_append {world reached : World} {earlier : List (Vlan × Outcome)}
    (goesOn : vlandefApg tools interface world earlier = (reached, none))
    (more : List (Vlan × Outcome)) :
    reached = world.created interface (earlier.map Prod.fst) ∧
      vlandefApg tools interface world (earlier ++ more) =
        vlandefApg tools interface reached more := by
  induction earlier generalizing world with
  | nil =>
    obtain ⟨rfl, -⟩ := Prod.mk.inj goesOn
    exact ⟨(created_nil interface world).symm, rfl⟩
  | cons step earlier ih =>
    obtain ⟨vlan, outcome⟩ := step
    rw [List.cons_append, vlandefApg]
    rw [vlandefApg] at goesOn
    split at goesOn
    · next between goes =>
        obtain ⟨isCreated, continued⟩ := ih goesOn
        refine ⟨?_, continued⟩
        rw [isCreated, created_of_handle tools interface goes, created_cons]
        rfl
    · cases goesOn

def World.Has (world : World) (vlan : Vlan) : Prop :=
  adapterName interface vlan ∈ world.localLinks ∧ adapterName interface vlan ∈ world.peerLinks ∧
    adapterName interface vlan ∈ world.vlanRules ∧
    mappingLine vlan.name (adapterName interface vlan) ∈ world.mappingLines

theorem has_created (world : World) {vlan : Vlan} {vlans : List Vlan} (member : vlan ∈ vlans) :
    (world.created interface vlans).Has interface vlan := by
  refine ⟨?_, ?_, ?_, ?_⟩ <;> exact List.mem_append_right _ (List.mem_map.mpr ⟨vlan, member, rfl⟩)

end Script

/-- When the script exits at a VLAN, the ones in front of it have all that belongs to them, and
nothing has been done for the others if and only if the arguments of the VLAN have been rejected or
its link on the own node has not been made. -/
theorem vlandefApg_exits_clean_iff (tools : Tools) (interface : Text) {world reached : World}
    {earlier : List (Vlan × Outcome)} {vlan : Vlan} {outcome : Outcome} {status : Nat}
    (goesOn : vlandefApg tools interface world earlier = (reached, none))
    (exits : (handle tools interface reached vlan outcome).2 = some status)
    (later : List (Vlan × Outcome)) :
    ((vlandefApg tools interface world (earlier ++ (vlan, outcome) :: later)).2 = some status ∧
      (∀ step ∈ earlier, (vlandefApg tools interface world
        (earlier ++ (vlan, outcome) :: later)).1.Has interface step.1) ∧
      (vlandefApg tools interface world (earlier ++ (vlan, outcome) :: later)).1 =
        world.created interface (earlier.map Prod.fst)) ↔
      checkArgs tools reached vlan outcome ≠ none ∨ outcome.localLink = false := by
  obtain ⟨isCreated, continued⟩ := vlandefApg_append tools interface goesOn
    ((vlan, outcome) :: later)
  have ends : vlandefApg tools interface reached ((vlan, outcome) :: later) =
      ((handle tools interface reached vlan outcome).1, some status) := by
    rw [vlandefApg]
    split
    · next goes => rw [goes] at exits; cases exits
    · next found => rw [found] at exits ⊢; rw [Option.some.inj exits]
  rw [continued, ends, ← handle_unchanged_iff tools interface, ← isCreated]
  constructor
  · exact fun clean => clean.2.2
  · intro unchanged
    refine ⟨rfl, fun step member => ?_, unchanged⟩
    rw [unchanged, isCreated]
    exact has_created interface world (List.mem_map_of_mem member)

def sampleWorld : World :=
  ⟨["eth1.10".toList], ["eth1.10".toList], [], [mappingLine "Public".toList "eth1.10".toList]⟩

def sampleTools : Tools :=
  ⟨fun word => [word], id, fun _ _ => none, fun _ _ => false⟩

def sampleStep : Vlan × Outcome :=
  (⟨"om".toList, "20".toList⟩, ⟨false, true, true, true⟩)

def rejectedStep : Vlan × Outcome :=
  (⟨"backup".toList, "0".toList⟩, ⟨false, true, true, true⟩)

theorem vlandefApg_exits_clean_tag :
    (vlandefApg sampleTools "eth1".toList sampleWorld ([sampleStep] ++ [rejectedStep])).2 =
        some 22 ∧
      (∀ step ∈ [sampleStep], (vlandefApg sampleTools "eth1".toList sampleWorld
        ([sampleStep] ++ [rejectedStep])).1.Has "eth1".toList step.1) ∧
      (vlandefApg sampleTools "eth1".toList sampleWorld ([sampleStep] ++ [rejectedStep])).1 =
        sampleWorld.created "eth1".toList ([sampleStep].map Prod.fst) :=
  (vlandefApg_exits_clean_iff sampleTools "eth1".toList
    (show _ = (sampleWorld.created "eth1".toList [sampleStep.1], none) by decide +kernel)
    (by decide +kernel) []).mpr (.inl (by decide +kernel))

/-- The link on the own node stays when the one on the peer node cannot be made. -/
theorem vlandefApg_leaves_link :
    vlandefApg sampleTools "eth1".toList sampleWorld
        [(⟨"om".toList, "20".toList⟩, ⟨false, true, false, true⟩)] =
      ({ sampleWorld with localLinks := ["eth1.10".toList, "eth1.20".toList] }, some 4) := by
  decide +kernel

end Apos.VlanMapping
