import P2pTunnler.ListenerSound
import Mathlib.Logic.Function.Basic

/-!
# Parties over an untrusted DHT

Any number of connections, each with its publisher and its listener. The DHT
keeps every value that was ever put and may hand any of them to any listener,
whatever key it was put under, in any order and as often as it likes.
-/

namespace P2pTunnler

/-- One configured connection of one host. -/
structure Party where
  privateKey : SecretKey
  remoteKey : PublicKey
  flags : ConnectionFlags

structure Publication (ι : Type) where
  publisher : ι
  key : Bytes
  message : Message
  value : Bytes

structure DhtState (ι : Type) where
  listeners : ι → ListenerState
  -- the addresses of a publisher's last round, `none` before its first
  addresses : ι → Option (List SocketAddr)
  puts : List (Publication ι)

inductive DhtEvent (ι : Type)
  -- `received` is what `candidates.recv` gave since the last round, if it gave addresses
  | publish (i : ι) (received : Option (List SocketAddr)) (now : Int) (nonce : Nonce)
  | deliver (i : ι) (n : Nat) (now : Int) (knownOrder updatedOrder : List SocketAddr) (instant : Nat)

inductive DhtOut (ι : Type)
  | put (p : Publication ι)
  | handled (i : ι) (value : Bytes) (installed : Option Message)

abbrev DhtEntry (ι : Type) := Machine.Entry (DhtState ι) (DhtEvent ι) (DhtOut ι)

def DhtState.new {ι : Type} (tok : ι → Token) : DhtState ι := ⟨fun i => .new (tok i), fun _ => none, []⟩

section
variable {ι : Type} {κ : Type} (E : Encodings) (B : SalsaBox κ)

def Party.endpoint (p : Party) : Endpoint κ := ⟨E, B, p.privateKey, p.remoteKey, p.flags⟩

/-- `p` is the other end of the connection `q`. -/
def Party.PeerOf (p q : Party) : Prop :=
  B.publicKey p.privateKey = q.remoteKey ∧ p.remoteKey = B.publicKey q.privateKey

/-- `p` is the same end of the same connection as `q`. -/
def Party.SameEnd (p q : Party) : Prop :=
  B.publicKey p.privateKey = B.publicKey q.privateKey ∧ p.remoteKey = q.remoteKey

def Party.sharedKey (p : Party) : κ := B.new p.remoteKey p.privateKey

variable (parties : ι → Party)

/-- Different connections have different shared keys. -/
def KeysSeparate : Prop :=
  ∀ i j, (parties i).sharedKey B = (parties j).sharedKey B →
    (parties i).PeerOf B (parties j) ∨ (parties i).SameEnd B (parties j)

section
variable [DecidableEq ι]

def dht : Machine (DhtState ι) (DhtEvent ι) (DhtOut ι) where
  step s
    | .publish i received now nonce =>
      let P := (parties i).endpoint E B
      let localToken := (s.listeners i).probes.localToken
      let addresses :=
        match s.addresses i with
        | none => []
        | some last => received.getD last
      (P.publish localToken addresses now nonce).map fun value =>
        let p := ⟨i, dhtKey P.localKey P.remoteKey, P.record localToken addresses now, value⟩
        ({ s with addresses := Function.update s.addresses i (some addresses), puts := s.puts ++ [p] }, .put p)
    | .deliver i n now knownOrder updatedOrder instant =>
      s.puts[n]?.bind fun p =>
        (((parties i).endpoint E B).listener.step (s.listeners i)
          ⟨p.value, now, knownOrder, updatedOrder, instant⟩).map fun r =>
            ({ s with listeners := Function.update s.listeners i r.1 }, .handled i p.value r.2)

end

/-- Every installed record was put before by a publisher that `R` allows for the listener. -/
def Authentic (R : ι → ι → Prop) (tr : List (DhtEntry ι)) : Prop :=
  ∀ a en b, tr = a ++ en :: b → ∀ i value m, en.out = .handled i value (some m) →
    ∃ e ∈ a, ∃ p, e.out = .put p ∧ p.value = value ∧
      (E.jsonBytes p.message).bind E.parseDhtMessage = some m ∧ R p.publisher i

/-! ## What is on the DHT -/

def Produced (p : Publication ι) : Prop :=
  ∃ plaintext nonce, E.jsonBytes p.message = some plaintext ∧
    CryptoBox.encryptWithNonce B ((parties p.publisher).endpoint E B).crypto plaintext nonce = some p.value

section
variable {E B parties}

theorem Party.PeerOf.sharedKey_eq (hB : B.Lawful) {p q : Party} (h : p.PeerOf B q) :
    p.sharedKey B = q.sharedKey B := by
  rw [Party.sharedKey, Party.sharedKey, ← h.1, h.2]
  exact hB.agree _ _

/-- A published value decodes on the connections that share the key of its publisher, to what it was made from. -/
theorem decode_produced (hB : B.Lawful) {p : Publication ι} (hp : Produced E B parties p) {i : ι} {m : Message} :
    ((parties i).endpoint E B).decode p.value = some m ↔
      (parties p.publisher).sharedKey B = (parties i).sharedKey B ∧
        (E.jsonBytes p.message).bind E.parseDhtMessage = some m := by
  obtain ⟨plaintext, nonce, hj, henc⟩ := hp
  rw [Endpoint.decode, Option.bind_eq_some_iff, hj, Option.bind_some]
  constructor
  · rintro ⟨plaintext', hdec, hparse⟩
    obtain ⟨hk, rfl⟩ := (CryptoBox.decrypt_encrypted hB henc).mp hdec
    exact ⟨hk.symm, hparse⟩
  · rintro ⟨hk, hparse⟩
    exact ⟨plaintext, (CryptoBox.decrypt_encrypted hB henc).mpr ⟨hk.symm, rfl⟩, hparse⟩

variable [DecidableEq ι] {s s' : DhtState ι}

theorem dht_publish {i : ι} {received : Option (List SocketAddr)} {now : Int} {nonce : Nonce} {o : DhtOut ι}
    (h : (dht E B parties).step s (.publish i received now nonce) = some (s', o)) :
    ∃ p, o = .put p ∧ s'.puts = s.puts ++ [p] ∧ Produced E B parties p := by
  simp only [dht] at h
  obtain ⟨value, hv, he⟩ := Option.map_eq_some_iff.mp h
  simp only [Prod.mk.injEq] at he
  obtain ⟨rfl, rfl⟩ := he
  obtain ⟨plaintext, hj, henc⟩ := Option.bind_eq_some_iff.mp hv
  exact ⟨_, rfl, rfl, plaintext, nonce, hj, henc⟩

theorem dht_deliver {i : ι} {n : Nat} {now : Int} {known updated : List SocketAddr} {instant : Nat} {o : DhtOut ι}
    (h : (dht E B parties).step s (.deliver i n now known updated instant) = some (s', o)) :
    ∃ p ∈ s.puts, ∃ m, o = .handled i p.value m ∧ s'.puts = s.puts ∧
      ∀ m', m = some m' → ((parties i).endpoint E B).decode p.value = some m' := by
  simp only [dht] at h
  obtain ⟨p, hp, h⟩ := Option.bind_eq_some_iff.mp h
  obtain ⟨⟨l, m⟩, hl, he⟩ := Option.map_eq_some_iff.mp h
  simp only [Prod.mk.injEq] at he
  obtain ⟨rfl, rfl⟩ := he
  refine ⟨p, List.mem_of_getElem? hp, m, rfl, rfl, fun m' hm => ?_⟩
  subst hm
  rcases listener_step_cases hl with ⟨ho, _⟩ | ⟨m, ho, hrec, _⟩
  · cases ho
  · cases ho
    exact (Endpoint.receive_eq_some _).mp hrec |>.1

/-- The DHT holds nothing but what the publishers put. -/
theorem puts_produced {tok : ι → Token} {tr : List (DhtEntry ι)} (hr : (dht E B parties).Run (.new tok) tr s) :
    ∀ p ∈ s.puts, (∃ e ∈ tr, e.out = .put p) ∧ Produced E B parties p := by
  refine hr.history (C := fun _ => True)
    (P := fun tr s => ∀ p ∈ s.puts, (∃ e ∈ tr, e.out = .put p) ∧ Produced E B parties p)
    (fun p hp => (by cases hp)) ?_ (fun _ _ => trivial)
  intro tr s e o s' _ hI hst _ p hp
  have hold : p ∈ s.puts → (∃ en ∈ tr ++ [⟨s, e, o, s'⟩], en.out = .put p) ∧ Produced E B parties p := by
    intro hp
    obtain ⟨⟨en, hen, ho⟩, hprod⟩ := hI p hp
    exact ⟨⟨en, List.mem_append_left _ hen, ho⟩, hprod⟩
  cases e with
  | publish i received now nonce =>
    obtain ⟨q, rfl, hputs, hprod⟩ := dht_publish hst
    rw [hputs] at hp
    rcases List.mem_append.mp hp with hp | hp
    · exact hold hp
    · obtain rfl := List.mem_singleton.mp hp
      exact ⟨⟨_, List.mem_append_right _ (List.mem_singleton.mpr rfl), rfl⟩, hprod⟩
  | deliver i n now known updated instant =>
    obtain ⟨_, _, _, _, hputs, _⟩ := dht_deliver hst
    exact hold (hputs ▸ hp)

/-! ## Authenticity -/

/-- **Record authenticity.** Whatever the DHT does, a record that a listener
installs was put by the publisher at the other end, or by its own. -/
theorem record_authentic (hB : B.Lawful) (hsep : KeysSeparate B parties)
    {tok : ι → Token} {tr : List (DhtEntry ι)} (hr : (dht E B parties).Run (.new tok) tr s) :
    Authentic E (fun j i => (parties j).PeerOf B (parties i) ∨ (parties j).SameEnd B (parties i)) tr := by
  intro a en b htr i value m hout
  rw [htr] at hr
  obtain ⟨hpre, hst⟩ := hr.split
  cases he : en.event with
  | publish j received now nonce =>
    rw [he] at hst
    obtain ⟨p, ho, _⟩ := dht_publish hst
    rw [hout] at ho; cases ho
  | deliver j n now known updated instant =>
    rw [he] at hst
    obtain ⟨p, hp, m', ho, _, hdec⟩ := dht_deliver hst
    rw [hout] at ho
    cases ho
    obtain ⟨⟨e, hea, heo⟩, hprod⟩ := puts_produced hpre p hp
    obtain ⟨hkey, hm⟩ := (decode_produced hB hprod).mp (hdec m rfl)
    exact ⟨e, hea, p, heo, rfl, hm, hsep _ _ hkey⟩

end

end

/-! ## Two hosts -/

def pairParties (i : Bool) : Party :=
  if i then ⟨sampleKey 1, sampleKey 2, ⟨false, false⟩⟩ else ⟨sampleKey 2, sampleKey 1, ⟨false, false⟩⟩

def pairDht : Machine (DhtState Bool) (DhtEvent Bool) (DhtOut Bool) := dht sampleEnc sampleBox pairParties

/-- Host `i` publishes twice, and its second value is handed to host `j`. -/
def publishTo (i j : Bool) : List (DhtEvent Bool) :=
  [.publish i none (secs 190) (sampleNonce 0),
    .publish i (some [.testNet 2 10000]) (secs 200) (sampleNonce 1),
    .deliver j 1 (secs 250) [] [.testNet 2 10000] 0]

theorem publishTo_runs (i j : Bool) : (pairDht.exec (.new fun _ => .fill 5) (publishTo i j)).isSome = true := by
  cases i <;> cases j <;> decide +kernel

def installs (en : DhtEntry Bool) : Bool :=
  match en.out with
  | .handled true _ (some m) => m = sampleNew
  | _ => false

def putBy (i : Bool) (en : DhtEntry Bool) : Bool :=
  match en.out with
  | .put p => p.publisher = i
  | .handled _ _ _ => true

theorem pairParties_separate : KeysSeparate sampleBox pairParties := by
  intro i j hkey
  cases i <;> cases j
  · exact .inr ⟨rfl, rfl⟩
  · exact .inl ⟨rfl, rfl⟩
  · exact .inl ⟨rfl, rfl⟩
  · exact .inr ⟨rfl, rfl⟩

theorem publishTo_authentic : ∃ tr s, pairDht.Run (.new fun _ => .fill 5) tr s ∧ tr.any installs = true ∧
    Authentic sampleEnc (fun j i => (pairParties j).PeerOf sampleBox (pairParties i) ∨
      (pairParties j).SameEnd sampleBox (pairParties i)) tr :=
  ⟨_, _, Machine.run_of_exec (publishTo_runs false true), by decide +kernel,
    record_authentic sampleBox_lawful pairParties_separate
      (Machine.run_of_exec (publishTo_runs false true))⟩

/-- A host installs its own record when the DHT hands it back. -/
theorem reflected_record_installed : sampleBox.Lawful ∧ KeysSeparate sampleBox pairParties ∧
    ¬ ∀ tr s, pairDht.Run (.new fun _ => .fill 5) tr s →
      Authentic sampleEnc (fun j i => (pairParties j).PeerOf sampleBox (pairParties i)) tr := by
  refine ⟨sampleBox_lawful, pairParties_separate, fun h => ?_⟩
  have hall := h _ _ (Machine.run_of_exec (publishTo_runs true true))
  have hinst : ((pairDht.exec (.new fun _ => .fill 5) (publishTo true true)).get
    (publishTo_runs true true)).1.any installs = true := by decide +kernel
  have hown : ((pairDht.exec (.new fun _ => .fill 5) (publishTo true true)).get
    (publishTo_runs true true)).1.all (putBy true) = true := by decide +kernel
  obtain ⟨en, hen, hi⟩ := List.any_eq_true.mp hinst
  obtain ⟨a, b, htr⟩ := List.append_of_mem hen
  unfold installs at hi
  split at hi
  · rename_i value m hout
    obtain ⟨e, he, p, ho, _, _, hpeer⟩ := hall a en b htr true value m hout
    have hp := List.all_eq_true.mp hown e (by rw [htr]; exact List.mem_append_left _ he)
    rw [putBy, ho, decide_eq_true_eq] at hp
    rw [hp] at hpeer
    exact absurd hpeer.1 (by decide)
  · cases hi

end P2pTunnler
