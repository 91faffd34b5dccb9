import Mathlib.Logic.Relation
import RankMail.Proofs.Network.Exchange

set_option autoImplicit false

/-! # Rallies

Ping sends a payload and waits for a reply, a number of times; pong sends back whatever it gets, as
many times, and then takes back its own slots until nothing comes any more. Each has a program of
its own, and a `Rally` is the network with the places at which the two are in their programs: either
may act next at any time, and no wait for the other is given up (`Rally.Step`).

A rally goes through phases (`Rally.Phase`). What is in the queues at each:

    phase       queue of ping         queue of pong        read
    ready       -                     slots of pong
    asked       -                     slots, request
    heard       -                     -                    request, by pong
    freed       slots of ping         -
    answered    slots, reply          -
    replied     -                     -                    reply, by ping

A fragment is given back before the next payload is sent, so it stands ahead of that in the queue of
its owner, who has it back once that has been read. So whoever is about to send has all its slots,
and a single batch of them will do, even if it is a single slot (`Network.Assembled.rallies`).
-/

namespace RankMail

/-! ## The programs -/

/-- Who takes part, and what ping sends. -/
structure Pair where
  ping : UInt32
  pong : UInt32
  payload : List UInt8
deriving Repr, DecidableEq

/-- What ping is about to do; how many rounds come after this one is `left`. -/
inductive Ping where
  | serve (left : Nat)
  | await (left : Nat)
  | pause (left : Nat)
  | settle (left : Nat) (reply : Delivery)
  | finished
deriving Repr, DecidableEq

/-- What pong is about to do. After the last round it drains its queue. -/
inductive Pong where
  | await (left : Nat)
  | pause (left : Nat)
  | copy (left : Nat) (request : Delivery)
  | release (left : Nat) (request : Delivery) (echo : List UInt8)
  | answer (left : Nat) (echo : List UInt8)
  | drain
  | doze
  | clear (stray : Delivery)
  | finished
deriving Repr, DecidableEq

namespace Ping

def goOn : Nat → Ping
  | 0 => .finished
  | left + 1 => .serve left

/-- How many replies ping has still to get. -/
def awaits : Ping → Nat
  | serve left => left + 1
  | await left => left + 1
  | pause left => left + 1
  | settle left _ => left
  | finished => 0

/-- Ping acts; a wait takes some time at most. -/
def act (pair : Pair) (bound : Nat) : Ping → Action Network Ping
  | serve left => do
      Network.send pair.ping pair.pong pair.payload
      pure (.await left)
  | await left => do
      match ← Network.receive pair.ping with
      | none => pure (.pause left)
      | some reply => pure (.settle left reply)
  | pause left => do
      Network.wait pair.ping bound
      pure (.await left)
  | settle left reply => do
      Network.release reply
      pure (.goOn left)
  | finished => pure .finished

end Ping

namespace Pong

def goOn : Nat → Pong
  | 0 => .drain
  | left + 1 => .await left

def act (pair : Pair) (bound : Nat) : Pong → Action Network Pong
  | await left => do
      match ← Network.receive pair.pong with
      | none => pure (.pause left)
      | some request => pure (.copy left request)
  | pause left => do
      Network.wait pair.pong bound
      pure (.await left)
  | copy left request => do
      let echo ← .look fun network => request.message.payload network.world.memory
      pure (.release left request echo)
  | release left request echo => do
      Network.release request
      pure (.answer left echo)
  | answer left echo => do
      Network.send pair.pong pair.ping echo
      pure (.goOn left)
  | drain => do
      match ← Network.receive pair.pong with
      | none => pure .doze
      | some stray => pure (.clear stray)
  | doze => do
      Network.wait pair.pong bound
      pure .drain
  | clear stray => do
      Network.release stray
      pure .drain
  | finished => pure .finished

end Pong

/-! ## Rallies -/

/-- A network, and where the two are in their programs. -/
structure Rally where
  network : Network
  ping : Ping
  pong : Pong

namespace Rally

def start (network : Network) (rounds : Nat) : Rally := ⟨network, .goOn rounds, .goOn rounds⟩

/-- One of the two acts; or pong has drained its queue for long enough. -/
inductive Step (pair : Pair) : Rally → Rally → Prop
  | ping {network after : Network} {ping next : Ping} {pong : Pong} (bound : Nat)
      (acts : ping.act pair bound network = .done next after) :
      Step pair ⟨network, ping, pong⟩ ⟨after, next, pong⟩
  | pong {network after : Network} {ping : Ping} {pong next : Pong} (bound : Nat)
      (acts : pong.act pair bound network = .done next after) :
      Step pair ⟨network, ping, pong⟩ ⟨after, ping, next⟩
  | quit {network : Network} {ping : Ping} :
      Step pair ⟨network, ping, .doze⟩ ⟨network, ping, .finished⟩

def Reaches (pair : Pair) : Rally → Rally → Prop := Relation.ReflTransGen (Step pair)

end Rally

/-! ## Phases -/

namespace Ping

inductive Waits (left : Nat) : Ping → Prop
  | await : Waits left (.await left)
  | pause : Waits left (.pause left)

/-- As long as it waits, ping has one more reply to get than rounds are left. -/
theorem Waits.awaits {left : Nat} {ping : Ping} (waits : ping.Waits left) :
    ping.awaits = left + 1 := by
  cases waits <;> rfl

@[simp] theorem awaits_goOn (rounds : Nat) : (goOn rounds).awaits = rounds := by
  cases rounds <;> rfl

end Ping

namespace Pong

/-- Pong looks for a request, or for its own slots if no round is left. -/
inductive Rests : Nat → Pong → Prop
  | await {left : Nat} : Rests (left + 1) (.await left)
  | pause {left : Nat} : Rests (left + 1) (.pause left)
  | drain : Rests 0 .drain
  | doze : Rests 0 .doze
  | finished : Rests 0 .finished

inductive Hears (left : Nat) (request : Delivery) : List UInt8 → Pong → Prop
  | copy {payload : List UInt8} : Hears left request payload (.copy left request)
  | release {payload : List UInt8} : Hears left request payload (.release left request payload)

theorem rests_goOn (rounds : Nat) : (goOn rounds).Rests rounds := by
  cases rounds with
  | zero => exact .drain
  | succ left => exact .await

end Pong

namespace Pair

def request (pair : Pair) : Letter := ⟨pair.ping, pair.ping, pair.payload⟩

def reply (pair : Pair) : Letter := ⟨pair.pong, pair.pong, pair.payload⟩

def ranks (pair : Pair) : List UInt32 := [pair.ping, pair.pong]

theorem ping_mem (pair : Pair) : pair.ping ∈ pair.ranks := List.mem_cons_self

theorem pong_mem (pair : Pair) : pair.pong ∈ pair.ranks :=
  List.mem_cons_of_mem _ List.mem_cons_self

end Pair

namespace Rally

/-- The phases of a rally, by where the two are, what is pending, and what has been read. -/
inductive Phase (pair : Pair) (pending : UInt32 → List Item) : List Delivery → Ping → Pong → Prop
  | ready {left : Nat} {pong : Pong} (rests : pong.Rests left) (dry : pending pair.ping = [])
      (quiet : IsQuiet (pending pair.pong)) : Phase pair pending [] (.goOn left) pong
  | asked {left : Nat} {ping : Ping} {pong : Pong} (waits : ping.Waits left)
      (rests : pong.Rests (left + 1)) (dry : pending pair.ping = [])
      (last : EndsWith (pending pair.pong) pair.request) : Phase pair pending [] ping pong
  | heard {left : Nat} {ping : Ping} {pong : Pong} {request : Delivery} (waits : ping.Waits left)
      (hears : pong.Hears left request pair.payload) (reader : request.reader = pair.pong)
      (letter : request.letter = pair.request) (dry : pending pair.ping = [])
      (empty : pending pair.pong = []) : Phase pair pending [request] ping pong
  | freed {left : Nat} {ping : Ping} (waits : ping.Waits left) (quiet : IsQuiet (pending pair.ping))
      (dry : pending pair.pong = []) : Phase pair pending [] ping (.answer left pair.payload)
  | answered {left : Nat} {ping : Ping} {pong : Pong} (waits : ping.Waits left)
      (rests : pong.Rests left) (last : EndsWith (pending pair.ping) pair.reply)
      (dry : pending pair.pong = []) : Phase pair pending [] ping pong
  | replied {left : Nat} {pong : Pong} {reply : Delivery} (rests : pong.Rests left)
      (reader : reply.reader = pair.ping) (letter : reply.letter = pair.reply)
      (empty : pending pair.ping = []) (dry : pending pair.pong = []) :
      Phase pair pending [reply] (.settle left reply) pong

/-- What holds of a rally of so many rounds. -/
structure Holds (directory : String) (pair : Pair) (batch : UInt32 → Nat) (rounds : Nat)
    (pending : UInt32 → List Item) (rally : Rally) : Prop where
  exchange : Exchange directory pair.ranks pair.payload.length batch rally.network pending
  phase : Phase pair pending rally.network.received rally.ping rally.pong
  /-- All the replies that ping has got, and will have got at the end, are the same. -/
  replies : rally.network.surfacedAt pair.ping ++ List.replicate rally.ping.awaits pair.reply =
    List.replicate rounds pair.reply

variable {directory : String} {pair : Pair} {batch : UInt32 → Nat}
  {rounds left length : Nat} {network after : Network} {pending pendingAfter : UInt32 → List Item}
  {ping next : Ping} {pong pongNext : Pong} {received : List Delivery} {rally rallyAfter : Rally}
  {rank : UInt32} {node : Node} {index : Nat} {descriptor : Descriptor}

/-! ### Waiting -/

theorem waits_acts
    (exchange : Exchange directory pair.ranks length batch network pending)
    (waits : ping.Waits left) (quiet : IsQuiet (pending pair.ping)) (bound : Nat) :
    ∃ next after pendingAfter, ping.act pair bound network = .done next after ∧ next.Waits left ∧
      Exchange directory pair.ranks length batch after pendingAfter ∧
      network.Idles pair.ping pending after pendingAfter := by
  cases waits with
  | await =>
      obtain ⟨after, pendingAfter, ends, kept, idles⟩ := exchange.receive_none pair.ping_mem quiet
      exact ⟨_, after, pendingAfter, Action.bind_done ends _, .pause, kept, idles⟩
  | pause =>
      obtain ⟨after, ends, kept, idles⟩ := exchange.wait pair.ping_mem bound
      exact ⟨_, after, pending, Action.bind_done ends _, .await, kept, idles⟩

theorem rests_acts
    (exchange : Exchange directory pair.ranks length batch network pending)
    (rests : pong.Rests left) (quiet : IsQuiet (pending pair.pong)) (bound : Nat) :
    ∃ next after pendingAfter, pong.act pair bound network = .done next after ∧ next.Rests left ∧
      Exchange directory pair.ranks length batch after pendingAfter ∧
      network.Idles pair.pong pending after pendingAfter := by
  have receives := exchange.receive_none pair.pong_mem quiet
  have waits := exchange.wait pair.pong_mem bound
  cases rests with
  | await =>
      obtain ⟨after, pendingAfter, ends, kept, idles⟩ := receives
      exact ⟨_, after, pendingAfter, Action.bind_done ends _, .pause, kept, idles⟩
  | pause =>
      obtain ⟨after, ends, kept, idles⟩ := waits
      exact ⟨_, after, pending, Action.bind_done ends _, .await, kept, idles⟩
  | drain =>
      obtain ⟨after, pendingAfter, ends, kept, idles⟩ := receives
      exact ⟨_, after, pendingAfter, Action.bind_done ends _, .doze, kept, idles⟩
  | doze =>
      obtain ⟨after, ends, kept, idles⟩ := waits
      exact ⟨_, after, pending, Action.bind_done ends _, .drain, kept, idles⟩
  | finished =>
      exact ⟨_, network, pending, rfl, .finished, exchange, rfl, fun _ => rfl, fun _ => rfl,
        List.suffix_refl _⟩

/-- When no letter is pending at the two, none is pending at all. -/
theorem isQuiet_all
    (exchange : Exchange directory pair.ranks length batch network pending)
    (one : IsQuiet (pending pair.ping)) (two : IsQuiet (pending pair.pong)) (target : UInt32) :
    IsQuiet (pending target) := by
  by_cases member : target ∈ pair.ranks
  · rcases List.mem_pair.mp member with rfl | rfl
    · exact one
    · exact two
  · rw [exchange.others member]
    exact isQuiet_nil

/-! ### Rounds -/

/-- A round in which the two take turns: neither looks into its queue before there is something to
be had. -/
inductive Round (pair : Pair) (network after : Network) : Prop
  | intro {asked heard freed answered replied : Network} {request reply : Delivery}
      (asks : Network.send pair.ping pair.pong pair.payload network = .done () asked)
      (hears : Network.receive pair.pong asked = .done (some request) heard)
      (copies : request.message.payload heard.world.memory = pair.payload)
      (frees : Network.release request heard = .done () freed)
      (answers : Network.send pair.pong pair.ping pair.payload freed = .done () answered)
      (gets : Network.receive pair.ping answered = .done (some reply) replied)
      (settles : Network.release reply replied = .done () after)

/-- A round is a part of a rally. -/
theorem Round.reaches (round : Round pair network after) (left : Nat) : ∃ freed,
      Reaches pair ⟨network, .serve left, .await left⟩
        ⟨freed, .await left, .answer left pair.payload⟩ ∧
      Reaches pair ⟨freed, .await left, .answer left pair.payload⟩
        ⟨after, .goOn left, .goOn left⟩ := by
  obtain @⟨_, heard, freed, _, _, request, _, asks, hears, copies, frees, answers, gets, settles⟩ :=
    round
  have echoes : (Pong.copy left request).act pair 0 heard =
      .done (.release left request pair.payload) heard := by
    rw [← copies]
    rfl
  refine ⟨freed, ?_, ?_⟩
  · exact .head (.ping 0 (Action.bind_done asks _)) <| .head (.pong 0 (Action.bind_done hears _)) <|
      .head (.pong 0 echoes) <| .single (.pong 0 (Action.bind_done frees _))
  · exact .head (.pong 0 (Action.bind_done answers _)) <|
      .head (.ping 0 (Action.bind_done gets _)) <| .single (.ping 0 (Action.bind_done settles _))

/-- Ping may send: nothing is held, and no letter is pending. -/
structure Ready (directory : String) (pair : Pair) (batch : UInt32 → Nat) (network : Network)
    (pending : UInt32 → List Item) : Prop where
  exchange : Exchange directory pair.ranks pair.payload.length batch network pending
  held : network.received = []
  dry : pending pair.ping = []
  quiet : IsQuiet (pending pair.pong)

/-- When ping may send, a round can be played, and then it may send again. -/
theorem Ready.round (differ : pair.ping ≠ pair.pong)
    (ready : Ready directory pair batch network pending) :
    ∃ after pendingAfter, Round pair network after ∧
      Ready directory pair batch after pendingAfter := by
  obtain ⟨asked, pendingAsked, asks, exchange, held, _, stays, last⟩ :=
    ready.exchange.send pair.ping_mem pair.pong_mem rfl ready.held
      (isQuiet_all ready.exchange (ready.dry ▸ isQuiet_nil) ready.quiet) ready.dry
  have dry : pendingAsked pair.ping = [] := (stays _ differ).trans ready.dry
  obtain ⟨request, heard, pendingHeard, hears, _, letter, exchange, received, _, _, stays, empty⟩ :=
    exchange.receive_last pair.pong_mem last held
  replace dry : pendingHeard pair.ping = [] := (stays _ differ).trans dry
  have copies : request.message.payload heard.world.memory = pair.payload := by
    rw [exchange.held_payload (received ▸ List.mem_cons_self), letter]
  have owner : request.letter.owner = pair.ping := congrArg Letter.owner letter
  obtain ⟨freed, pendingFreed, frees, exchange, held, _, stays, quiet⟩ :=
    exchange.release received (owner ▸ pair.ping_mem)
  replace empty : pendingFreed pair.pong = [] := (stays _ (owner ▸ differ.symm)).trans empty
  obtain ⟨answered, pendingAnswered, answers, exchange, held, _, stays, last⟩ :=
    exchange.send pair.pong_mem pair.ping_mem rfl held
      (isQuiet_all exchange (quiet _ (dry ▸ isQuiet_nil)) (empty ▸ isQuiet_nil)) empty
  replace empty : pendingAnswered pair.pong = [] := (stays _ differ.symm).trans empty
  obtain ⟨reply, replied, pendingReplied, gets, _, letter, exchange, received, _, _, stays, dry⟩ :=
    exchange.receive_last pair.ping_mem last held
  replace empty : pendingReplied pair.pong = [] := (stays _ differ.symm).trans empty
  have owner : reply.letter.owner = pair.pong := congrArg Letter.owner letter
  obtain ⟨after, pendingAfter, settles, exchange, held, _, stays, quiet⟩ :=
    exchange.release received (owner ▸ pair.pong_mem)
  exact ⟨after, pendingAfter, ⟨asks, hears, copies, frees, answers, gets, settles⟩, exchange, held,
    (stays _ (owner ▸ differ)).trans dry, quiet _ (empty ▸ isQuiet_nil)⟩

namespace Holds

/-- A rally goes on in a phase, and ping has got no reply. -/
theorem goesOn (holds : Holds directory pair batch rounds pending ⟨network, ping, pong⟩)
    (kept : Exchange directory pair.ranks pair.payload.length batch after pendingAfter)
    (held : after.received = received) (phase : Phase pair pendingAfter received next pongNext)
    (surfaced : after.surfacedAt pair.ping = network.surfacedAt pair.ping)
    (awaits : next.awaits = ping.awaits) :
    Holds directory pair batch rounds pendingAfter ⟨after, next, pongNext⟩ where
  exchange := kept
  phase := held ▸ phase
  replies := by
    dsimp only
    rw [surfaced, awaits]
    exact holds.replies

/-! ### What ping does -/

theorem ping_waits (differ : pair.ping ≠ pair.pong)
    (holds : Holds directory pair batch rounds pending ⟨network, ping, pong⟩)
    (waits : ping.Waits left) (quiet : IsQuiet (pending pair.ping))
    (stays : ∀ {next pendingAfter}, Ping.Waits left next →
      pendingAfter pair.pong = pending pair.pong → pendingAfter pair.ping <:+ pending pair.ping →
        Phase pair pendingAfter network.received next pong) (bound : Nat) :
    ∃ next after pendingAfter, ping.act pair bound network = .done next after ∧
      Holds directory pair batch rounds pendingAfter ⟨after, next, pong⟩ := by
  obtain ⟨next, after, pendingAfter, acts, waitsNext, kept, idles⟩ :=
    waits_acts holds.exchange waits quiet bound
  exact ⟨next, after, pendingAfter, acts, holds.goesOn kept idles.received
    (stays waitsNext (idles.elsewhere differ.symm) idles.behind) (idles.surfaced _)
    (waitsNext.awaits.trans waits.awaits.symm)⟩

theorem ping_pauses
    (holds : Holds directory pair batch rounds pending ⟨network, .pause left, pong⟩)
    (stays : Phase pair pending network.received (.await left) pong) (bound : Nat) :
    ∃ after, (Ping.pause left).act pair bound network = .done (.await left) after ∧
      Holds directory pair batch rounds pending ⟨after, .await left, pong⟩ := by
  obtain ⟨after, ends, kept, idles⟩ := holds.exchange.wait pair.ping_mem bound
  exact ⟨after, Action.bind_done ends _,
    holds.goesOn kept idles.received stays (idles.surfaced _) rfl⟩

theorem ping_serves (differ : pair.ping ≠ pair.pong)
    (holds : Holds directory pair batch rounds pending ⟨network, .serve left, pong⟩)
    (rests : pong.Rests (left + 1)) (held : network.received = []) (dry : pending pair.ping = [])
    (quiet : IsQuiet (pending pair.pong)) (bound : Nat) :
    ∃ after pendingAfter, (Ping.serve left).act pair bound network = .done (.await left) after ∧
      Holds directory pair batch rounds pendingAfter ⟨after, .await left, pong⟩ := by
  obtain ⟨after, pendingAfter, sent, kept, received, surfaced, stays, last⟩ :=
    holds.exchange.send pair.ping_mem pair.pong_mem rfl held
      (isQuiet_all holds.exchange (dry ▸ isQuiet_nil) quiet) dry
  exact ⟨after, pendingAfter, Action.bind_done sent _, holds.goesOn kept received
    (.asked .await rests ((stays _ differ).trans dry) last) (surfaced _) rfl⟩

theorem ping_gets (differ : pair.ping ≠ pair.pong)
    (holds : Holds directory pair batch rounds pending ⟨network, .await left, pong⟩)
    (rests : pong.Rests left) (held : network.received = [])
    (last : EndsWith (pending pair.ping) pair.reply) (dry : pending pair.pong = []) (bound : Nat) :
    ∃ reply after pendingAfter,
      (Ping.await left).act pair bound network = .done (.settle left reply) after ∧
      Holds directory pair batch rounds pendingAfter
        ⟨after, .settle left reply, pong⟩ := by
  obtain ⟨reply, after, pendingAfter, ends, reader, letter, kept, received, _, surfaced, stays,
    empty⟩ := holds.exchange.receive_last pair.ping_mem last held
  refine ⟨reply, after, pendingAfter, Action.bind_done ends _, kept, ?_, ?_⟩
  · dsimp only
    rw [received]
    exact .replied rests reader letter empty ((stays _ differ.symm).trans dry)
  · show after.surfacedAt pair.ping ++ List.replicate left pair.reply = _
    rw [surfaced, List.append_assoc, List.singleton_append, ← List.replicate_succ]
    exact holds.replies

/-- Ping gives a reply back, and is ready for the next round. -/
theorem ping_settles (differ : pair.ping ≠ pair.pong) {reply : Delivery}
    (holds : Holds directory pair batch rounds pending
      ⟨network, .settle left reply, pong⟩)
    (rests : pong.Rests left) (held : network.received = [reply])
    (letter : reply.letter = pair.reply) (empty : pending pair.ping = [])
    (dry : pending pair.pong = []) (bound : Nat) :
    ∃ after pendingAfter,
      (Ping.settle left reply).act pair bound network = .done (.goOn left) after ∧
      Holds directory pair batch rounds pendingAfter ⟨after, .goOn left, pong⟩ := by
  have owner : reply.letter.owner = pair.pong := congrArg Letter.owner letter
  obtain ⟨after, pendingAfter, released, kept, received, surfaced, stays, quiet⟩ :=
    holds.exchange.release held (owner ▸ pair.pong_mem)
  exact ⟨after, pendingAfter, Action.bind_done released _, holds.goesOn kept received
    (.ready rests ((stays _ (owner ▸ differ)).trans empty) (quiet _ (dry ▸ isQuiet_nil)))
    (surfaced _) (Ping.awaits_goOn left)⟩

/-! ### What pong does -/

theorem pong_rests (differ : pair.ping ≠ pair.pong)
    (holds : Holds directory pair batch rounds pending ⟨network, ping, pong⟩)
    (rests : pong.Rests left) (quiet : IsQuiet (pending pair.pong))
    (stays : ∀ {next pendingAfter}, Pong.Rests left next →
      pendingAfter pair.ping = pending pair.ping → pendingAfter pair.pong <:+ pending pair.pong →
        Phase pair pendingAfter network.received ping next) (bound : Nat) :
    ∃ next after pendingAfter, pong.act pair bound network = .done next after ∧
      Holds directory pair batch rounds pendingAfter ⟨after, ping, next⟩ := by
  obtain ⟨next, after, pendingAfter, acts, restsNext, kept, idles⟩ :=
    rests_acts holds.exchange rests quiet bound
  exact ⟨next, after, pendingAfter, acts, holds.goesOn kept idles.received
    (stays restsNext (idles.elsewhere differ) idles.behind) (idles.surfaced _) rfl⟩

theorem pong_pauses
    (holds : Holds directory pair batch rounds pending ⟨network, ping, .pause left⟩)
    (stays : Phase pair pending network.received ping (.await left)) (bound : Nat) :
    ∃ after, (Pong.pause left).act pair bound network = .done (.await left) after ∧
      Holds directory pair batch rounds pending ⟨after, ping, .await left⟩ := by
  obtain ⟨after, ends, kept, idles⟩ := holds.exchange.wait pair.pong_mem bound
  exact ⟨after, Action.bind_done ends _,
    holds.goesOn kept idles.received stays (idles.surfaced _) rfl⟩

theorem pong_gets (differ : pair.ping ≠ pair.pong)
    (holds : Holds directory pair batch rounds pending ⟨network, ping, .await left⟩)
    (waits : ping.Waits left) (held : network.received = []) (dry : pending pair.ping = [])
    (last : EndsWith (pending pair.pong) pair.request) (bound : Nat) :
    ∃ request after pendingAfter,
      (Pong.await left).act pair bound network = .done (.copy left request) after ∧
      Holds directory pair batch rounds pendingAfter
        ⟨after, ping, .copy left request⟩ := by
  obtain ⟨request, after, pendingAfter, ends, reader, letter, kept, received, surfaced, _, stays,
    empty⟩ := holds.exchange.receive_last pair.pong_mem last held
  exact ⟨request, after, pendingAfter, Action.bind_done ends _, holds.goesOn kept received
    (.heard waits .copy reader letter ((stays _ differ).trans dry) empty) (surfaced _ differ) rfl⟩

theorem pong_copies {request : Delivery}
    (holds : Holds directory pair batch rounds pending
      ⟨network, ping, .copy left request⟩)
    (waits : ping.Waits left) (held : network.received = [request])
    (reader : request.reader = pair.pong) (letter : request.letter = pair.request)
    (dry : pending pair.ping = []) (empty : pending pair.pong = []) (bound : Nat) :
    (Pong.copy left request).act pair bound network =
        .done (.release left request pair.payload) network ∧
      Holds directory pair batch rounds pending
        ⟨network, ping, .release left request pair.payload⟩ := by
  have echo : request.message.payload network.world.memory = pair.payload := by
    rw [holds.exchange.held_payload (held ▸ List.mem_cons_self), letter, Pair.request]
  refine ⟨?_, holds.goesOn holds.exchange held (.heard waits .release reader letter dry empty)
    rfl rfl⟩
  rw [← echo]
  rfl

theorem pong_releases (differ : pair.ping ≠ pair.pong) {request : Delivery}
    (holds : Holds directory pair batch rounds pending
      ⟨network, ping, .release left request pair.payload⟩)
    (waits : ping.Waits left) (held : network.received = [request])
    (letter : request.letter = pair.request) (dry : pending pair.ping = [])
    (empty : pending pair.pong = []) (bound : Nat) :
    ∃ after pendingAfter, (Pong.release left request pair.payload).act pair bound network =
        .done (.answer left pair.payload) after ∧
      Holds directory pair batch rounds pendingAfter
        ⟨after, ping, .answer left pair.payload⟩ := by
  have owner : request.letter.owner = pair.ping := congrArg Letter.owner letter
  obtain ⟨after, pendingAfter, released, kept, received, surfaced, stays, quiet⟩ :=
    holds.exchange.release held (owner ▸ pair.ping_mem)
  exact ⟨after, pendingAfter, Action.bind_done released _, holds.goesOn kept received
    (.freed waits (quiet _ (dry ▸ isQuiet_nil)) ((stays _ (owner ▸ differ.symm)).trans empty))
    (surfaced _) rfl⟩

/-- Pong answers, and is ready for the next round. -/
theorem pong_answers (differ : pair.ping ≠ pair.pong)
    (holds : Holds directory pair batch rounds pending
      ⟨network, ping, .answer left pair.payload⟩)
    (waits : ping.Waits left) (held : network.received = []) (quiet : IsQuiet (pending pair.ping))
    (dry : pending pair.pong = []) (bound : Nat) :
    ∃ after pendingAfter, (Pong.answer left pair.payload).act pair bound network =
        .done (.goOn left) after ∧
      Holds directory pair batch rounds pendingAfter ⟨after, ping, .goOn left⟩ := by
  obtain ⟨after, pendingAfter, sent, kept, received, surfaced, stays, last⟩ :=
    holds.exchange.send pair.pong_mem pair.ping_mem rfl held
      (isQuiet_all holds.exchange quiet (dry ▸ isQuiet_nil)) dry
  exact ⟨after, pendingAfter, Action.bind_done sent _, holds.goesOn kept received
    (.answered waits (Pong.rests_goOn left) last ((stays _ differ.symm).trans dry)) (surfaced _)
    rfl⟩

/-! ### Steps -/

/-- Whatever ping is about to do is done, and leaves the rally in one of its phases. -/
theorem ping_acts (differ : pair.ping ≠ pair.pong)
    (holds : Holds directory pair batch rounds pending ⟨network, ping, pong⟩)
    (bound : Nat) :
    ∃ next after pendingAfter, ping.act pair bound network = .done next after ∧
      Holds directory pair batch rounds pendingAfter ⟨after, next, pong⟩ := by
  have phase : Phase pair pending network.received ping pong := holds.phase
  generalize held : network.received = received at phase
  cases phase with
  | @ready left _ rests dry quiet =>
      cases left with
      | zero => exact ⟨.finished, network, pending, rfl, holds⟩
      | succ left => exact ⟨_, holds.ping_serves differ rests held dry quiet bound⟩
  | asked waits rests dry last =>
      refine holds.ping_waits differ waits (dry ▸ isQuiet_nil) (fun next other behind => ?_) bound
      rw [held]
      exact .asked next rests (List.suffix_nil.mp (dry ▸ behind)) (other ▸ last)
  | heard waits hears reader letter dry empty =>
      refine holds.ping_waits differ waits (dry ▸ isQuiet_nil) (fun next other behind => ?_) bound
      rw [held]
      exact .heard next hears reader letter (List.suffix_nil.mp (dry ▸ behind)) (other.trans empty)
  | freed waits quiet dry =>
      refine holds.ping_waits differ waits quiet (fun next other behind => ?_) bound
      rw [held]
      exact .freed next (quiet.of_suffix behind) (other.trans dry)
  | answered waits rests last dry =>
      cases waits with
      | await =>
          obtain ⟨reply, gets⟩ := holds.ping_gets differ rests held last dry bound
          exact ⟨_, gets⟩
      | pause =>
          obtain ⟨after, pauses⟩ :=
            holds.ping_pauses (held ▸ .answered .await rests last dry) bound
          exact ⟨_, after, pending, pauses⟩
  | replied rests reader letter empty dry =>
      exact ⟨_, holds.ping_settles differ rests held letter empty dry bound⟩

theorem pong_acts (differ : pair.ping ≠ pair.pong)
    (holds : Holds directory pair batch rounds pending ⟨network, ping, pong⟩)
    (bound : Nat) :
    ∃ next after pendingAfter, pong.act pair bound network = .done next after ∧
      Holds directory pair batch rounds pendingAfter ⟨after, ping, next⟩ := by
  have phase : Phase pair pending network.received ping pong := holds.phase
  generalize held : network.received = received at phase
  cases phase with
  | ready rests dry quiet =>
      refine holds.pong_rests differ rests quiet (fun next other behind => ?_) bound
      rw [held]
      exact .ready next (other.trans dry) (quiet.of_suffix behind)
  | asked waits rests dry last =>
      cases rests with
      | await =>
          obtain ⟨request, gets⟩ := holds.pong_gets differ waits held dry last bound
          exact ⟨_, gets⟩
      | pause =>
          obtain ⟨after, pauses⟩ := holds.pong_pauses (held ▸ .asked waits .await dry last) bound
          exact ⟨_, after, pending, pauses⟩
  | heard waits hears reader letter dry empty =>
      cases hears with
      | copy =>
          exact ⟨_, network, pending,
            holds.pong_copies waits held reader letter dry empty bound⟩
      | release => exact ⟨_, holds.pong_releases differ waits held letter dry empty bound⟩
  | freed waits quiet dry => exact ⟨_, holds.pong_answers differ waits held quiet dry bound⟩
  | answered waits rests last dry =>
      refine holds.pong_rests differ rests (dry ▸ isQuiet_nil) (fun next other behind => ?_) bound
      rw [held]
      exact .answered waits next (other ▸ last) (List.suffix_nil.mp (dry ▸ behind))
  | replied rests reader letter empty dry =>
      refine holds.pong_rests differ rests (dry ▸ isQuiet_nil) (fun next other behind => ?_) bound
      rw [held]
      exact .replied next reader letter (other.trans empty) (List.suffix_nil.mp (dry ▸ behind))

/-- Pong stops only after the last round. -/
theorem quit (holds : Holds directory pair batch rounds pending ⟨network, ping, .doze⟩) :
    Holds directory pair batch rounds pending ⟨network, ping, .finished⟩ := by
  have phase : Phase pair pending network.received ping .doze := holds.phase
  generalize held : network.received = received at phase
  refine holds.goesOn holds.exchange held ?_ rfl rfl
  cases phase with
  | ready rests dry quiet =>
      cases rests
      exact .ready .finished dry quiet
  | asked waits rests => cases rests
  | heard waits hears => cases hears
  | answered waits rests last dry =>
      cases rests
      exact .answered waits .finished last dry
  | replied rests reader letter empty dry =>
      cases rests
      exact .replied .finished reader letter empty dry

theorem step (differ : pair.ping ≠ pair.pong)
    (holds : Holds directory pair batch rounds pending rally)
    (step : Step pair rally rallyAfter) :
    ∃ pendingAfter, Holds directory pair batch rounds pendingAfter rallyAfter := by
  cases step with
  | ping bound acts =>
      obtain ⟨_, _, pendingAfter, same, holdsAfter⟩ := holds.ping_acts differ bound
      obtain ⟨rfl, rfl⟩ := Outcome.done.inj (acts.symm.trans same)
      exact ⟨pendingAfter, holdsAfter⟩
  | pong bound acts =>
      obtain ⟨_, _, pendingAfter, same, holdsAfter⟩ := holds.pong_acts differ bound
      obtain ⟨rfl, rfl⟩ := Outcome.done.inj (acts.symm.trans same)
      exact ⟨pendingAfter, holdsAfter⟩
  | quit => exact ⟨pending, holds.quit⟩

/-- A rally never leaves its phases. -/
theorem reaches (differ : pair.ping ≠ pair.pong)
    (holds : Holds directory pair batch rounds pending rally)
    (reaches : Reaches pair rally rallyAfter) :
    ∃ pendingAfter, Holds directory pair batch rounds pendingAfter rallyAfter := by
  induction reaches with
  | refl => exact ⟨pending, holds⟩
  | tail _ step ih =>
      obtain ⟨_, holdsNext⟩ := ih
      exact holdsNext.step differ step

/-! ### What the phases tell -/

theorem is_reply {reply : Delivery}
    (holds : Holds directory pair batch rounds pending
      ⟨network, .settle left reply, pong⟩) :
    reply.message.payload network.world.memory = pair.payload := by
  have phase : Phase pair pending network.received (.settle left reply) pong := holds.phase
  generalize held : network.received = received at phase
  generalize here : Ping.settle left reply = ping at phase
  cases phase with
  | @ready rounds => cases rounds <;> cases here
  | asked waits | heard waits | freed waits | answered waits => cases waits <;> cases here
  | replied rests reader letter empty dry =>
      obtain ⟨rfl, rfl⟩ := Ping.settle.inj here
      rw [holds.exchange.held_payload (held ▸ List.mem_cons_self), letter, Pair.reply]

/-- Ping gets a reply as soon as it looks for one that has been sent. -/
theorem ping_obtains (differ : pair.ping ≠ pair.pong)
    (holds : Holds directory pair batch rounds pending ⟨network, .await left, pong⟩)
    (sent : network.surfacedAt pair.ping ≠ network.sentTo pair.ping) (bound : Nat) :
    ∃ reply after, (Ping.await left).act pair bound network = .done (.settle left reply) after := by
  have phase : Phase pair pending network.received (.await left) pong := holds.phase
  have loud : ¬IsQuiet (pending pair.ping) := fun quiet => sent (holds.exchange.surfaced_eq quiet)
  generalize held : network.received = received at phase
  generalize here : Ping.await left = ping at phase
  cases phase with
  | @ready rounds => cases rounds <;> cases here
  | asked waits rests dry | heard waits hears reader letter dry =>
      exact absurd (dry ▸ isQuiet_nil) loud
  | freed waits quiet => exact absurd quiet loud
  | answered waits rests last dry =>
      cases waits with
      | await =>
          obtain rfl := Ping.await.inj here
          obtain ⟨reply, after, _, gets, _⟩ := holds.ping_gets differ rests held last dry bound
          exact ⟨reply, after, gets⟩
      | pause => cases here
  | replied => cases here

theorem pong_obtains (differ : pair.ping ≠ pair.pong)
    (holds : Holds directory pair batch rounds pending ⟨network, ping, .await left⟩)
    (sent : network.surfacedAt pair.pong ≠ network.sentTo pair.pong) (bound : Nat) :
    ∃ request after,
      (Pong.await left).act pair bound network = .done (.copy left request) after := by
  have phase : Phase pair pending network.received ping (.await left) := holds.phase
  have loud : ¬IsQuiet (pending pair.pong) := fun quiet => sent (holds.exchange.surfaced_eq quiet)
  generalize held : network.received = received at phase
  cases phase with
  | ready rests dry quiet => exact absurd quiet loud
  | asked waits rests dry last =>
      cases rests
      obtain ⟨request, after, _, gets, _⟩ := holds.pong_gets differ waits held dry last bound
      exact ⟨request, after, gets⟩
  | heard waits hears => cases hears
  | answered waits rests last dry => exact absurd (dry ▸ isQuiet_nil) loud
  | replied rests reader letter empty dry => exact absurd (dry ▸ isQuiet_nil) loud

/-- When ping is about to send, nothing is held, no letter is pending, and nothing is in its
queue. -/
theorem before_request
    (holds : Holds directory pair batch rounds pending ⟨network, .serve left, pong⟩) :
    network.received = [] ∧ (∀ target, IsQuiet (pending target)) ∧ pending pair.ping = [] := by
  have phase : Phase pair pending network.received (.serve left) pong := holds.phase
  generalize held : network.received = received at phase
  generalize here : Ping.serve left = ping at phase
  cases phase with
  | ready rests dry quiet =>
      exact ⟨rfl, isQuiet_all holds.exchange (dry ▸ isQuiet_nil) quiet, dry⟩
  | asked waits | heard waits | freed waits | answered waits => cases waits <;> cases here
  | replied => cases here

/-- When pong is about to send, nothing is held, no letter is pending, and nothing is in its
queue. -/
theorem before_reply {echo : List UInt8}
    (holds : Holds directory pair batch rounds pending ⟨network, ping, .answer left echo⟩) :
    network.received = [] ∧ (∀ target, IsQuiet (pending target)) ∧ pending pair.pong = [] := by
  have phase : Phase pair pending network.received ping (.answer left echo) := holds.phase
  generalize held : network.received = received at phase
  cases phase with
  | ready rests | asked _ rests | answered _ rests | replied rests => cases rests
  | heard waits hears => cases hears
  | freed waits quiet dry =>
      exact ⟨rfl, isQuiet_all holds.exchange quiet (dry ▸ isQuiet_nil), dry⟩

end Holds

/-- Ping may send when two nodes have been made and have attached each other, and each of them has
a class that holds the payload. -/
theorem start_ready (assembled : Network.Assembled directory network)
    (attached : network.IsMutual)
    (held : ∀ rank ∈ pair.ranks, ∃ node, network.nodes rank = some node ∧
      ∃ sizeClass, pair.payload.length ≤ node.config.capacities.capacity sizeClass) :
    ∃ pending, Ready directory pair (network.firstBatch pair.payload.length) network pending := by
  obtain ⟨mapped, pending, settled⟩ := assembled.reached.settled
  have untouched := assembled.untouched
  have nothing := assembled.nothing_pending settled
  exact ⟨pending,
    { settled := ⟨mapped, settled⟩
      whole := assembled.whole attached
      fragments := untouched.fragments
      retired := untouched.retired
      others := fun _ => nothing _
      supplied := fun {rank} member => by
        obtain ⟨node, found, fits⟩ := held rank member
        exact assembled.supplied found fits },
    untouched.received, nothing _, nothing _ ▸ isQuiet_nil⟩

theorem start_holds (assembled : Network.Assembled directory network)
    (attached : network.IsMutual)
    (held : ∀ rank ∈ pair.ranks, ∃ node, network.nodes rank = some node ∧
      ∃ sizeClass, pair.payload.length ≤ node.config.capacities.capacity sizeClass)
    (rounds : Nat) :
    ∃ pending, Holds directory pair (network.firstBatch pair.payload.length) rounds pending
      (.start network rounds) := by
  obtain ⟨pending, exchange, received, dry, quiet⟩ := start_ready assembled attached held
  refine ⟨pending, exchange, ?_, ?_⟩
  · show Phase pair pending network.received (.goOn rounds) (.goOn rounds)
    rw [received]
    exact .ready (Pong.rests_goOn rounds) dry quiet
  · show network.surfacedAt pair.ping ++ List.replicate (Ping.goOn rounds).awaits pair.reply = _
    rw [Network.surfacedAt, assembled.untouched.log, Ping.awaits_goOn]
    rfl

/-- A rank is about to send. -/
inductive IsSending (pair : Pair) : Rally → UInt32 → Prop
  | ping {network : Network} {left : Nat} {pong : Pong} :
      IsSending pair ⟨network, .serve left, pong⟩ pair.ping
  | pong {network : Network} {ping : Ping} {left : Nat} {echo : List UInt8} :
      IsSending pair ⟨network, ping, .answer left echo⟩ pair.pong

theorem Holds.unused_once
    (holds : Holds directory pair batch rounds pending rally)
    (sending : IsSending pair rally rank) (found : rally.network.nodes rank = some node)
    (has : node.pool.arena.Has index descriptor) :
    (node.pool.free.get descriptor.sizeClass).count (node.pool.arena.handle index descriptor) =
      1 := by
  cases sending with
  | ping =>
      obtain ⟨held, quiet, dry⟩ := holds.before_request
      exact holds.exchange.unused_once held quiet dry found has
  | pong =>
      obtain ⟨held, quiet, dry⟩ := holds.before_reply
      exact holds.exchange.unused_once held quiet dry found has

end Rally

/-- **A rally takes one batch of slots.** Let two nodes have been made and have attached each other,
with no traffic yet, and let each of them have a class that holds the payload. However many rounds
are played, and whoever acts when, at each moment:

* whatever either of them is about to do is done: it does not fail, abort or hang;
* if one of them looks for what has been sent to it and has not surfaced yet, it gets that;
* if ping has got a reply, that is the payload; and the replies so far, with as many more as are
  still awaited, are one for each round;
* each of them has carved nothing, or its first batch;
* and when one of them is about to send, each slot that it has carved is unused, once. -/
theorem Network.Assembled.rallies {directory : String} {network : Network} {pair : Pair}
    {rounds : Nat} {rally : Rally} (assembled : Network.Assembled directory network)
    (attached : network.IsMutual) (differ : pair.ping ≠ pair.pong)
    (held : ∀ rank ∈ pair.ranks, ∃ node, network.nodes rank = some node ∧
      ∃ sizeClass, pair.payload.length ≤ node.config.capacities.capacity sizeClass)
    (reaches : Rally.Reaches pair (.start network rounds) rally) :
    (∀ bound, ∃ next after, rally.ping.act pair bound rally.network = .done next after) ∧
    (∀ bound, ∃ next after, rally.pong.act pair bound rally.network = .done next after) ∧
    (∀ left bound, rally.ping = .await left →
      rally.network.surfacedAt pair.ping ≠ rally.network.sentTo pair.ping →
        ∃ reply after, rally.ping.act pair bound rally.network =
          .done (.settle left reply) after) ∧
    (∀ left bound, rally.pong = .await left →
      rally.network.surfacedAt pair.pong ≠ rally.network.sentTo pair.pong →
        ∃ request after, rally.pong.act pair bound rally.network =
          .done (.copy left request) after) ∧
    (∀ left reply, rally.ping = .settle left reply →
      reply.message.payload rally.network.world.memory = pair.payload) ∧
    rally.network.surfacedAt pair.ping ++ List.replicate rally.ping.awaits pair.reply =
      List.replicate rounds pair.reply ∧
    ∀ rank ∈ pair.ranks, ∃ node, rally.network.nodes rank = some node ∧
      (node.pool.arena.descriptors.size = 0 ∨
        node.pool.arena.descriptors.size = network.firstBatch pair.payload.length rank) ∧
      (Rally.IsSending pair rally rank →
        ∀ index descriptor, node.pool.arena.Has index descriptor →
          (node.pool.free.get descriptor.sizeClass).count
            (node.pool.arena.handle index descriptor) = 1) := by
  obtain ⟨_, begun⟩ := Rally.start_holds assembled attached held rounds
  obtain ⟨pending, holds⟩ := begun.reaches differ reaches
  obtain ⟨network, ping, pong⟩ := rally
  refine ⟨fun bound => ?_, fun bound => ?_, fun left bound here sent => ?_,
    fun left bound here sent => ?_, fun left reply here => ?_, holds.replies,
    fun rank member => ?_⟩
  · obtain ⟨next, after, _, acts, _⟩ := holds.ping_acts differ bound
    exact ⟨next, after, acts⟩
  · obtain ⟨next, after, _, acts, _⟩ := holds.pong_acts differ bound
    exact ⟨next, after, acts⟩
  · obtain rfl : ping = .await left := here
    exact holds.ping_obtains differ sent bound
  · obtain rfl : pong = .await left := here
    exact holds.pong_obtains differ sent bound
  · obtain rfl : ping = .settle left reply := here
    exact holds.is_reply
  · obtain ⟨node, sizeClass, found, supplies⟩ := holds.exchange.supplied member
    exact ⟨node, found, supplies.stock.imp And.left And.left, fun sending index descriptor has =>
      holds.unused_once sending found has⟩

/-- Node 0 of the two sends two bytes, and node 1 sends them back. -/
def Network.twoPlayers : Pair := ⟨0, 1, [104, 105]⟩

theorem Network.twoPlayers_fit : ∀ rank ∈ twoPlayers.ranks, ∃ node,
    twoNodes.nodes rank = some node ∧ ∃ sizeClass,
      twoPlayers.payload.length ≤ node.config.capacities.capacity sizeClass := by
  have fits : twoPlayers.ranks.all (fun rank => (twoNodes.nodes rank).any fun node =>
      decide (2 ≤ node.config.capacities.capacity .maxSend)) = true := by decide +kernel
  intro rank member
  obtain ⟨node, found, large⟩ := (Option.any_eq_true ..).mp (List.all_eq_true.mp fits rank member)
  exact ⟨node, found, .maxSend, of_decide_eq_true large⟩

/-- The first round of two. Ping has sent a request, and pong gets it; pong has given it back, and
can answer; ping has got the answer and given that back: it has one reply, each slot that it has
carved is unused, and it can send again. -/
theorem Network.rallies_twoNodes : twoNodes.firstBatch 2 0 = 2 ∧
    ∃ asked freed after : Network,
      Rally.Reaches ⟨0, 1, [104, 105]⟩ (.start twoNodes 2) ⟨asked, .await 1, .await 1⟩ ∧
      (∃ request last, (Pong.await 1).act ⟨0, 1, [104, 105]⟩ 50 asked =
        .done (.copy 1 request) last) ∧
      Rally.Reaches ⟨0, 1, [104, 105]⟩ (.start twoNodes 2)
        ⟨freed, .await 1, .answer 1 [104, 105]⟩ ∧
      (∃ next last, (Pong.answer 1 [104, 105]).act ⟨0, 1, [104, 105]⟩ 50 freed =
        .done next last) ∧
      Rally.Reaches ⟨0, 1, [104, 105]⟩ ⟨freed, .await 1, .answer 1 [104, 105]⟩
        ⟨after, .serve 0, .await 0⟩ ∧
      after.surfacedAt 0 = [⟨1, 1, [104, 105]⟩] ∧
      (∃ next last, (Ping.serve 0).act ⟨0, 1, [104, 105]⟩ 50 after = .done next last) ∧
      ∃ node, after.nodes 0 = some node ∧
        (node.pool.arena.descriptors.size = 0 ∨
          node.pool.arena.descriptors.size = twoNodes.firstBatch 2 0) ∧
        ∀ index descriptor, node.pool.arena.Has index descriptor →
          (node.pool.free.get descriptor.sizeClass).count
            (node.pool.arena.handle index descriptor) = 1 := by
  obtain ⟨assembled, attached⟩ := twoNodes_assembled
  have differ : twoPlayers.ping ≠ twoPlayers.pong := by decide
  -- What has been sent first is still to be had.
  have sends : ∃ sent ∈ (Network.send 0 1 [104, 105] twoNodes).done?,
      sent.2.surfacedAt 1 ≠ sent.2.sentTo 1 := by decide +kernel
  obtain ⟨⟨⟨⟩, asked⟩, sent, unread⟩ := sends
  have begun : Rally.Reaches twoPlayers (.start twoNodes 2) ⟨asked, .await 1, .await 1⟩ :=
    .single (.ping 0 (Action.bind_done (Outcome.eq_of_done? sent) _))
  obtain ⟨_, _, _, obtains, _⟩ := assembled.rallies attached differ twoPlayers_fit begun
  -- The rest of the round can be played.
  obtain ⟨_, ready⟩ := Rally.start_ready assembled attached twoPlayers_fit
  obtain ⟨after, _, round, _⟩ := ready.round differ
  obtain ⟨freed, (heard : Rally.Reaches twoPlayers (.start twoNodes 2) _), answered⟩ :=
    round.reaches 1
  obtain ⟨_, answers, _⟩ := assembled.rallies attached differ twoPlayers_fit heard
  obtain ⟨serves, _, _, _, _, replies, carved⟩ :=
    assembled.rallies attached differ twoPlayers_fit (heard.trans answered)
  obtain ⟨node, found, size, unused⟩ := carved 0 List.mem_cons_self
  refine ⟨by decide +kernel, asked, freed, after, begun, obtains 1 50 rfl unread, heard, answers 50,
    answered, ?_, serves 50, node, found, size, unused .ping⟩
  exact List.append_cancel_right (replies.trans List.replicate_succ')

end RankMail
