import RankMail.Proofs.Network.Runs

set_option autoImplicit false

/-! # Networks before traffic

A network is `Assembled` when nodes have been made in a directory, by any number of processes, and
have attached one another, and nothing else has been done. Once every node has attached every other
one, operations may come in any order: none of them aborts or hangs, and every word of every queue
leads to a slot that all nodes reach (`Assembled.words_lead_to_slots`).

`Network.gather` assembles a network of given ranks, if it can; a network of two nodes is an example
of one that all of this applies to.
-/

namespace RankMail

namespace Network

/-- The networks whose nodes have been made in a directory, and have attached one another. -/
inductive Assembled (directory : String) : Network → Prop
  | start {process : UInt32} {running : List UInt32} {memory : Memory} {disk : Disk}
      (proper : disk.IsProper memory.fresh) :
      Assembled directory (.start { World.start process running with memory, disk })
  | turn {network : Network} (process : UInt32) (addresses : AddressSpace)
      (assembled : Assembled directory network) :
      Assembled directory (network.turned process addresses)
  | create {network : Network} {rank : UInt32} {config : Config} {node : Node} {world : World}
      (assembled : Assembled directory network) (new : network.nodes rank = none)
      (created : Node.create directory rank config network.world = .done node world) :
      Assembled directory (network.joined rank node world)
  | attach {network after : Network} {rank peer : UInt32}
      (assembled : Assembled directory network)
      (ends : (Network.attach rank peer network).state? = some after) :
      Assembled directory after

variable {directory : String} {network after : Network} {rank peer : UInt32} {offset : Offset}

/-- Nobody has sent anything, and nothing is held. -/
structure IsUntouched (network : Network) : Prop where
  fragments : network.fragments = []
  received : network.received = []
  retired : network.retired = []
  log : network.log = []

theorem IsUntouched.attach (untouched : network.IsUntouched)
    (ends : (Network.attach rank peer network).state? = some after) : after.IsUntouched := by
  rw [Network.attach] at ends
  split at ends
  · rw [Outcome.state?_mapState, Option.map_eq_some_iff] at ends
    obtain ⟨_, _, rfl⟩ := ends
    exact ⟨untouched.fragments, untouched.received, untouched.retired, untouched.log⟩
  · obtain rfl := Option.some.inj ends
    exact untouched

namespace Assembled

theorem reached (assembled : Assembled directory network) : Reached directory network := by
  induction assembled with
  | start proper => exact .start proper
  | turn process addresses _ ih => exact .turn process addresses ih
  | create _ new created ih => exact .create ih new created
  | attach _ ends ih => exact .perform (.attach _ _) ih ends

theorem untouched (assembled : Assembled directory network) : network.IsUntouched := by
  induction assembled with
  | start => exact ⟨rfl, rfl, rfl, rfl⟩
  | turn _ _ _ ih => exact ⟨ih.fragments, ih.received, ih.retired, ih.log⟩
  | create _ _ _ ih => exact ⟨ih.fragments, ih.received, ih.retired, ih.log⟩
  | attach _ ends ih => exact ih.attach ends

/-- Before traffic nothing but the attached segments makes a network whole. -/
theorem whole (assembled : Assembled directory network) (attached : network.IsMutual) :
    network.IsWhole where
  reaches := attached
  current inside := by
    rw [assembled.untouched.received] at inside
    cases inside

/-- Operations on a network that has been assembled come to an end, and leave it settled and
whole. -/
theorem run (assembled : Assembled directory network) (attached : network.IsMutual)
    (operations : List Operation) (orderly : ∀ operation ∈ operations, operation.IsOrderly) :
    ∃ after, network.run operations = some after ∧ after.IsWhole ∧
      ∃ mapped pending, Settled directory mapped after pending := by
  obtain ⟨_, _, settled⟩ := assembled.reached.settled
  exact settled.run operations (assembled.whole attached) orderly

end Assembled

/-! ## Where the words of a queue lead -/

/-- An offset leads nowhere, or to a slot that each node reaches: it has been carved, it is aligned,
and its header lies in the segment of its rank as the node has mapped it. -/
def Leads (network : Network) (offset : Offset) : Prop :=
  offset = .free ∨ (network.IsCarved offset ∧ offset.position.toNat % headerAlignment = 0 ∧
    ∀ rank node, network.nodes rank = some node →
      ∃ segment, node.segmentOf? offset.rank = some segment ∧
        offset.position.toNat + headerSize ≤ segment.size)

variable {mapped : List Segment} {pending : UInt32 → List Item} {hand line : List Offset}

/-- In a whole network slots lead to where all nodes reach. -/
theorem IsWhole.leads (whole : network.IsWhole)
    (sound : Sound directory mapped network pending hand) (carved : network.IsCarved offset) :
    network.Leads offset := by
  obtain ⟨index, descriptor, slot⟩ := id carved
  obtain ⟨home, found, aligned, room⟩ := sound.charted.isSlot sound.carved slot
  obtain ⟨owner, foundOwner, rfl⟩ := Option.map_eq_some_iff.mp found
  refine .inr ⟨carved, aligned, fun rank node foundNode => ?_⟩
  -- Each node has mapped the file of the owner, as long as it is.
  obtain ⟨segment, attached⟩ := Option.isSome_iff_exists.mp (whole.reaches foundNode foundOwner)
  obtain ⟨_, _, peer, foundPeer, same⟩ := sound.charted.peers foundNode attached
  obtain rfl := Option.some.inj (foundOwner.symm.trans foundPeer)
  refine ⟨segment, attached, ?_⟩
  rw [show segment.size = owner.segment.size from same.size]
  exact room

end Network

/-- **Runs of an assembled network end.** When all nodes have attached one another and nothing has
been sent yet, operations may come in any order and number, as long as nothing is attached or
detached and each fragment is used with its own node: each of them is done or fails, and none aborts
or hangs. After them the words of each queue hold a list of fragments, and the head, the tail, and
the links of these fragments lead nowhere or to slots that every node reaches. -/
theorem Network.Assembled.words_lead_to_slots {directory : String} {network : Network}
    (assembled : Network.Assembled directory network) (attached : network.IsMutual)
    (operations : List Operation) (orderly : ∀ operation ∈ operations, operation.IsOrderly) :
    ∃ after, network.run operations = some after ∧
      ∀ rank node, after.nodes rank = some node →
        ∃ line, (after.chain rank).Holds after.world.memory line ∧
          after.Leads ((after.chain rank).tail after.world.memory) ∧
          ∀ offset ∈ .free :: line,
            after.Leads ((after.chain rank).link after.world.memory offset) := by
  obtain ⟨after, ends, whole, mapped, pending, settled⟩ :=
    assembled.run attached operations orderly
  refine ⟨after, ends, fun rank node found => ?_⟩
  have holds := settled.sound.holds found
  have leads : ∀ {offset}, offset = .free ∨ offset ∈ (pending rank).map Item.offset →
      after.Leads offset := by
    rintro offset (free | inside)
    · exact .inl free
    · exact whole.leads settled.sound (settled.sound.isCarved (.queued rank) inside)
  exact ⟨_, holds, leads holds.words.2, fun offset inside => leads (holds.words.1 offset inside)⟩

/-! ## Two nodes -/

namespace Network

/-- Makes a node for a rank that has none. -/
def make (directory : String) (network : Network) (rank : UInt32) (config : Config) :
    Option Network :=
  if (network.nodes rank).isSome then none
  else
    match Node.create directory rank config network.world with
    | .done node world => some (network.joined rank node world)
    | _ => none

/-- Makes nodes, and lets each of them attach all; nothing if that does not come about. -/
def gather (directory : String) (process : UInt32) (members : List (UInt32 × Config)) :
    Option Network := do
  let made ← members.foldlM (fun network member => network.make directory member.1 member.2)
    (.start (.start process []))
  let pairs := members.flatMap fun one => members.map fun two => (one.1, two.1)
  let network ← pairs.foldlM
    (fun network pair => (Network.attach pair.1 pair.2 network).state?) made
  if pairs.all fun pair => ((network.nodes pair.1).bind (·.segmentOf? pair.2)).isSome
  then some network else none

theorem foldlM_keeps {Member : Type} {step : Network → Member → Option Network}
    {Kept : Network → Prop} {members : List Member} {network after : Network}
    (steps : ∀ member ∈ members, ∀ {one two}, Kept one → step one member = some two → Kept two)
    (kept : Kept network) (folded : members.foldlM step network = some after) : Kept after := by
  induction members generalizing network with
  | nil =>
      obtain rfl := Option.some.inj folded
      exact kept
  | cons first rest ih =>
      obtain ⟨next, stepped, folded⟩ := Option.bind_eq_some_iff.mp folded
      exact ih (fun member inside => steps member (List.mem_cons_of_mem _ inside))
        (steps first List.mem_cons_self kept stepped) folded

/-- The nodes of a network have ranks of a list. -/
def IsAmong (network : Network) (ranks : List UInt32) : Prop :=
  ∀ {rank node}, network.nodes rank = some node → rank ∈ ranks

variable {directory : String} {process : UInt32} {members : List (UInt32 × Config)}
  {network after : Network} {ranks : List UInt32} {rank peer : UInt32} {config : Config}

structure AssembledAmong (directory : String) (ranks : List UInt32) (network : Network) : Prop where
  assembled : Assembled directory network
  among : network.IsAmong ranks

theorem AssembledAmong.make (begun : AssembledAmong directory ranks network)
    (member : rank ∈ ranks) (made : network.make directory rank config = some after) :
    AssembledAmong directory ranks after := by
  rw [Network.make] at made
  split at made
  · cases made
  · next new =>
    split at made
    · next node world created =>
      obtain rfl := Option.some.inj made
      refine ⟨begun.assembled.create (by simpa using new) created, fun {other peer} found => ?_⟩
      by_cases same : other = rank
      · rwa [same]
      · exact begun.among (by simpa [joined, same] using found)
    · cases made

theorem AssembledAmong.attach (begun : AssembledAmong directory ranks network)
    (ends : (Network.attach rank peer network).state? = some after) :
    AssembledAmong directory ranks after := by
  refine ⟨begun.assembled.attach ends, fun {other next} found => ?_⟩
  rw [Network.attach] at ends
  split at ends
  · next node _ foundNode _ =>
    rw [Outcome.state?_mapState, Option.map_eq_some_iff] at ends
    obtain ⟨_, _, rfl⟩ := ends
    by_cases same : other = rank
    · exact same ▸ begun.among foundNode
    · exact begun.among (by simpa [same] using found)
  · obtain rfl := Option.some.inj ends
    exact begun.among found

/-- What has been gathered is assembled, and all nodes have attached one another. -/
theorem gather_assembled (gathered : gather directory process members = some network) :
    Assembled directory network ∧ network.IsMutual := by
  obtain ⟨made, folded, gathered⟩ := Option.bind_eq_some_iff.mp gathered
  obtain ⟨whole, paired, gathered⟩ := Option.bind_eq_some_iff.mp gathered
  split at gathered
  · next reaches =>
    obtain rfl := Option.some.inj gathered
    have begun : AssembledAmong directory (members.map Prod.fst) (.start (.start process [])) :=
      ⟨.start (Disk.isProper_empty _), fun found => by cases found⟩
    have members_made : AssembledAmong directory (members.map Prod.fst) made :=
      foldlM_keeps (fun member inside _ _ kept made =>
        kept.make (List.mem_map.mpr ⟨member, inside, rfl⟩) made) begun folded
    have kept : AssembledAmong directory (members.map Prod.fst) whole :=
      foldlM_keeps (fun _ _ _ _ kept ends => kept.attach ends) members_made paired
    refine ⟨kept.assembled, fun {rank node other peer} found foundPeer => ?_⟩
    obtain ⟨one, hereOne, rfl⟩ := List.mem_map.mp (kept.among found)
    obtain ⟨two, hereTwo, rfl⟩ := List.mem_map.mp (kept.among foundPeer)
    -- Both have a rank of the list, and each pair of them has been tested.
    have pair := List.all_eq_true.mp reaches (one.1, two.1)
      (List.mem_flatMap.mpr ⟨one, hereOne, List.mem_map.mpr ⟨two, hereTwo, rfl⟩⟩)
    simpa only [found, Option.bind_some] using pair
  · cases gathered

/-- What two nodes are made with. -/
def smallConfig : Config := ⟨2048, ⟨64, 128, 256⟩, 2, .busyPoll 1, false, false⟩

/-- Two nodes that have attached one another. -/
def twoNodes : Network :=
  (gather "/" 7 [(0, smallConfig), (1, smallConfig)]).get (by decide +kernel)

theorem twoNodes_assembled : Assembled "/" twoNodes ∧ twoNodes.IsMutual :=
  gather_assembled (Option.some_get _).symm

/-- A node sends to another one and to a rank that there is not, and the other one to itself; then
it reads. -/
theorem words_lead_to_slots_twoNodes :
    (∀ operation ∈ [Operation.send 0 1 [1, 2, 3], .send 1 1 [], .send 0 5 [4], .read 1],
      operation.IsOrderly) ∧
    ∃ after, twoNodes.run [.send 0 1 [1, 2, 3], .send 1 1 [], .send 0 5 [4], .read 1] =
      some after := by
  have orderly : ∀ operation ∈ [Operation.send 0 1 [1, 2, 3], .send 1 1 [], .send 0 5 [4],
      .read 1], operation.IsOrderly := by
    simp [Operation.IsOrderly]
  obtain ⟨after, ends, _⟩ :=
    twoNodes_assembled.1.words_lead_to_slots twoNodes_assembled.2 _ orderly
  exact ⟨orderly, after, ends⟩

end Network

end RankMail
