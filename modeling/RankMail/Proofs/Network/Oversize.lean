import RankMail.Proofs.Network.Assembled

set_option autoImplicit false

/-! # Payloads that are too long

A node sends bytes in a fragment of the narrowest class that holds them, and refuses bytes that no
class holds. So it sends as many bytes as its widest class holds, and no more. When it refuses some,
it names a capacity, but always that of the same class:

    user  eager  maxSend     100 bytes go in     limit     300 bytes exceed
      64    128      256     eager                 256     256
     256    128       64     eager                 256      64

Valid capacities may stand in either order. The number in the fault is the limit exactly if
`maxSend` is the widest class (`Capacities.narrowest_serves_widest_limits`).
-/

namespace RankMail

namespace Capacities

variable {capacities : Capacities} {length limit : Nat} {sizeClass other : SizeClass}

/-! ## The narrowest class and the widest one -/

/-- A class holds so many bytes, and none that holds them is narrower. -/
structure IsNarrowest (capacities : Capacities) (length : Nat) (sizeClass : SizeClass) : Prop where
  holds : length ≤ capacities.capacity sizeClass
  least : ∀ other, length ≤ capacities.capacity other →
    capacities.capacity sizeClass ≤ capacities.capacity other

structure IsWidest (capacities : Capacities) (limit : Nat) : Prop where
  attained : ∃ sizeClass, capacities.capacity sizeClass = limit
  greatest : ∀ sizeClass, capacities.capacity sizeClass ≤ limit

theorem capacity_injective (valid : capacities.validate = .ok ()) :
    Function.Injective capacities.capacity := by
  have differ : capacities.user ≠ capacities.eager ∧ capacities.user ≠ capacities.maxSend ∧
      capacities.eager ≠ capacities.maxSend := by
    rw [validate] at valid
    split at valid
    · cases valid
    · split at valid
      · cases valid
      · next differ => exact ⟨fun same => differ (.inl same),
          fun same => differ (.inr (.inl same)), fun same => differ (.inr (.inr same))⟩
  obtain ⟨userEager, userMax, eagerMax⟩ := differ
  intro sizeClass other same
  have words : capacities.get sizeClass = capacities.get other := UInt64.toNat_inj.mp same
  cases sizeClass <;> cases other <;>
    simp_all only [PerClass.get, ne_eq, not_true_eq_false]

theorem ofCapacity?_capacity (valid : capacities.validate = .ok ()) (sizeClass : SizeClass) :
    capacities.ofCapacity? (capacities.capacity sizeClass) = some sizeClass := by
  cases found : capacities.ofCapacity? (capacities.capacity sizeClass) with
  | none =>
      have differs := List.find?_eq_none.mp found sizeClass (SizeClass.mem_all sizeClass)
      simp at differs
  | some other =>
      have same : capacities.capacity other = capacities.capacity sizeClass := by
        simpa using List.find?_some found
      rw [capacity_injective valid same]

theorem IsNarrowest.unique (valid : capacities.validate = .ok ())
    (one : capacities.IsNarrowest length sizeClass) (two : capacities.IsNarrowest length other) :
    sizeClass = other :=
  capacity_injective valid (Nat.le_antisymm (one.least other two.holds)
    (two.least sizeClass one.holds))

theorem isNarrowest_forPayload (chosen : capacities.forPayload length = some sizeClass) :
    capacities.IsNarrowest length sizeClass :=
  ⟨(forPayload_eq_some chosen).1, (forPayload_eq_some chosen).2⟩

theorem forPayload_eq_some_iff (valid : capacities.validate = .ok ()) :
    capacities.forPayload length = some sizeClass ↔ capacities.IsNarrowest length sizeClass := by
  refine ⟨isNarrowest_forPayload, fun narrowest => ?_⟩
  cases chosen : capacities.forPayload length with
  | none =>
      have short := forPayload_eq_none_iff.mp chosen sizeClass
      exact absurd narrowest.holds (Nat.not_le.mpr short)
  | some other => rw [(isNarrowest_forPayload chosen).unique valid narrowest]

/-- The widest capacity is the length behind which no class holds anything. -/
theorem isWidest_iff : capacities.IsWidest limit ↔
    ∀ length, (∀ sizeClass, capacities.capacity sizeClass < length) ↔ limit < length := by
  constructor
  · rintro ⟨⟨widest, rfl⟩, greatest⟩ length
    exact ⟨fun short => short widest, fun longer sizeClass =>
      Nat.lt_of_le_of_lt (greatest sizeClass) longer⟩
  · intro ends
    have greatest : ∀ sizeClass, capacities.capacity sizeClass ≤ limit := fun sizeClass =>
      Nat.not_lt.mp fun above => Nat.lt_irrefl _ ((ends _).mpr above sizeClass)
    -- A payload as long as the limit is held by some class.
    obtain ⟨sizeClass, holds⟩ : ∃ sizeClass, ¬capacities.capacity sizeClass < limit :=
      not_forall.mp fun short => Nat.lt_irrefl _ ((ends limit).mp short)
    exact ⟨⟨sizeClass, Nat.le_antisymm (greatest sizeClass) (Nat.not_lt.mp holds)⟩, greatest⟩

end Capacities

/-! ## What a node refuses -/

/-- A node finds exactly those payloads too long that are longer than a limit, whomever they are
for. -/
def Node.IsLimit (scene : Scene Node) (limit : Nat) : Prop :=
  ∀ peer payload, (∃ length capacity after,
    Node.send peer payload scene = .failed (.oversize length capacity) after) ↔
      limit < payload.length

namespace Network

variable {directory : String} {network : Network} {rank peer : UInt32} {node : Node}
  {payload : List UInt8} {fault : Fault} {after : Scene Node} {limit : Nat}

/-- A send fails for one of three reasons. -/
theorem Reached.refuses (reached : Reached directory network)
    (found : network.nodes rank = some node)
    (failed : Node.send peer payload (network.world.enter node) = .failed fault after) :
    node.Refuses peer payload fault := by
  obtain ⟨mapped, pending, settled⟩ := reached.settled
  have reaching : (network.left rank (network.world.enter node)).Reaching node True :=
    fun _ => .inr trivial
  have ends := (settled.enter found).send_meets reaching peer payload
  rw [failed] at ends
  exact ends.2.1

/-- A payload is found too long exactly if no class holds it. -/
theorem Reached.send_oversize_iff (reached : Reached directory network)
    (found : network.nodes rank = some node) :
    (∃ length capacity after, Node.send peer payload (network.world.enter node) =
        .failed (.oversize length capacity) after) ↔
      ∀ sizeClass, node.pool.arena.capacities.capacity sizeClass < payload.length := by
  rw [← Capacities.forPayload_eq_none_iff]
  constructor
  · rintro ⟨length, capacity, after, failed⟩
    cases reached.refuses found failed with
    | oversize none => exact none
  · exact fun none => ⟨_, _, _, @Node.send_of_none (network.world.enter node) payload peer none⟩

/-- What a node sends at most is what its widest class holds. -/
theorem Reached.isLimit_iff (reached : Reached directory network)
    (found : network.nodes rank = some node) :
    Node.IsLimit (network.world.enter node) limit ↔
      node.pool.arena.capacities.IsWidest limit := by
  simp only [Node.IsLimit, reached.send_oversize_iff found, Capacities.isWidest_iff]
  constructor
  · intro ends length
    have payload := ends 0 (List.replicate length 0)
    rwa [List.length_replicate] at payload
  · exact fun ends _ payload => ends payload.length

end Network

/-- **What is too long to send.** Take any valid capacities, in whatever order. Of the classes that
hold so many bytes the narrowest is chosen, and none only if none holds them; and each class can be
told by its capacity.

Take any node with these capacities, in any network that has been reached:

* A slot of the class that is chosen for a payload takes the payload. So a send fails for no reason
  but that no class holds the bytes, that there is no slot of the class that does, or that the rank
  is not attached.
* If no class holds the bytes, nothing happens, and the fault names the capacity of `maxSend`.
* The node sends as many bytes as its widest class holds and finds longer payloads too long. So what
  the fault names is that limit exactly if no class is wider than `maxSend`. -/
theorem Capacities.narrowest_serves_widest_limits {capacities : Capacities}
    (valid : capacities.validate = .ok ()) :
    (∀ length sizeClass,
      (capacities.forPayload length = some sizeClass ↔
        capacities.IsNarrowest length sizeClass) ∧
      (capacities.forPayload length = none ↔ ∀ other, capacities.capacity other < length) ∧
      capacities.ofCapacity? (capacities.capacity sizeClass) = some sizeClass) ∧
    ∀ {directory network rank node}, Network.Reached directory network →
      network.nodes rank = some node → node.pool.arena.capacities = capacities →
      (∀ payload sizeClass fragment after, capacities.forPayload payload.length = some sizeClass →
        Node.alloc sizeClass (network.world.enter node) = .done fragment after →
          ∃ filled, fragment.write payload after.memory = .done () filled) ∧
      (∀ peer payload fault after,
        Node.send peer payload (network.world.enter node) = .failed fault after →
          node.Refuses peer payload fault) ∧
      (∀ peer payload, (∀ other, capacities.capacity other < payload.length) →
        Node.send peer payload (network.world.enter node) =
          .failed (.oversize payload.length (capacities.capacity .maxSend))
            (network.world.enter node)) ∧
      (∀ limit, Node.IsLimit (network.world.enter node) limit ↔ capacities.IsWidest limit) ∧
      (Node.IsLimit (network.world.enter node) (capacities.capacity .maxSend) ↔
        ∀ other, capacities.capacity other ≤ capacities.capacity .maxSend) := by
  refine ⟨fun length sizeClass => ⟨forPayload_eq_some_iff valid, forPayload_eq_none_iff,
    ofCapacity?_capacity valid sizeClass⟩, ?_⟩
  rintro directory network rank node reached found rfl
  refine ⟨fun payload sizeClass fragment after chosen allocated => ?_,
    fun peer payload fault after => reached.refuses found, fun peer payload short => ?_,
    fun limit => reached.isLimit_iff found, ?_⟩
  · obtain ⟨mapped, pending, settled⟩ := reached.settled
    have holds := @Sound.alloc_holds _ _ _ _ _ _ (network.world.enter node) _ _
      (settled.enter found) chosen
    rw [allocated] at holds
    obtain ⟨_, _, _, _, enough⟩ := holds
    exact ⟨_, Fragment.write_eq enough after.memory⟩
  · exact @Node.send_of_none (network.world.enter node) payload peer
      (forPayload_eq_none_iff.mpr short)
  · rw [reached.isLimit_iff found]
    exact ⟨IsWidest.greatest, fun greatest => ⟨⟨.maxSend, rfl⟩, greatest⟩⟩

/-- With the widest class last, what the fault names is the limit. -/
theorem Capacities.narrowest_serves_widest_limits_twoNodes :
    Network.smallConfig.capacities.validate = .ok () ∧
    ∃ node, Network.twoNodes.nodes 0 = some node ∧
      node.pool.arena.capacities = Network.smallConfig.capacities ∧
      Node.IsLimit (Network.twoNodes.world.enter node) 256 := by
  have valid : Network.smallConfig.capacities.validate = .ok () := by decide +kernel
  have facts : ∃ node ∈ Network.twoNodes.nodes 0,
      node.pool.arena.capacities = Network.smallConfig.capacities := by
    decide +kernel
  obtain ⟨node, found, same⟩ := facts
  obtain ⟨_, sends⟩ := Capacities.narrowest_serves_widest_limits valid
  obtain ⟨_, _, _, _, truthful⟩ := sends Network.twoNodes_assembled.1.reached found same
  refine ⟨valid, node, found, same, truthful.mpr fun other => ?_⟩
  cases other <;> decide

namespace Network

/-- A valid configuration with the widest class first. -/
def upended : Config := ⟨4096, ⟨256, 128, 64⟩, 1, .hybrid 20, true, false⟩

def oneNode : Network := (gather "/" 7 [(0, upended)]).get (by decide +kernel)

/-- A node with the widest class first refuses to send 300 bytes to itself, and says that they
exceed a capacity of 64 bytes; but 100 bytes it sends. -/
theorem oversize_understates :
    upended.validate = .ok () ∧ Reached "/" oneNode ∧
    (∃ node, oneNode.nodes 0 = some node ∧ node.config = upended ∧
      Node.send 0 (List.replicate 300 7) (oneNode.world.enter node) =
        .failed (.oversize 300 64) (oneNode.world.enter node) ∧
      ¬Node.IsLimit (oneNode.world.enter node) 64) ∧
    ∃ after ∈ oneNode.run [.send 0 0 (List.replicate 300 7), .send 0 0 (List.replicate 100 7)],
      after.log = [.sent 0 0 (List.replicate 100 7)] := by
  have assembled : Assembled "/" oneNode ∧ oneNode.IsMutual :=
    gather_assembled (Option.some_get _).symm
  have facts : ∃ node ∈ oneNode.nodes 0, node.config = upended ∧
      node.pool.arena.capacities = ⟨256, 128, 64⟩ := by
    decide +kernel
  obtain ⟨node, found, config, capacities⟩ := facts
  have reached := assembled.1.reached
  refine ⟨by decide +kernel, reached, ⟨node, found, config, ?_, fun isLimit => ?_⟩,
    by decide +kernel⟩
  · have none : node.pool.arena.capacities.forPayload (List.replicate 300 (7 : UInt8)).length =
        none := by
      rw [capacities, List.length_replicate]
      decide
    have failed := @Node.send_of_none (oneNode.world.enter node) _ 0 none
    rw [List.length_replicate] at failed
    change _ = Outcome.failed (.oversize 300 (node.pool.arena.capacities.capacity .maxSend)) _
      at failed
    rw [capacities] at failed
    exact failed
  · have widest := (reached.isLimit_iff found).mp isLimit
    have above := widest.greatest .user
    rw [capacities] at above
    exact absurd above (by decide)

end Network

end RankMail
