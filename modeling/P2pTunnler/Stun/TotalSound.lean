import P2pTunnler.Stun.CodecSound

/-!
# Decoding stops and never panics

Whatever bytes come in, no index, slice, copy or addition of the decoder goes
wrong. The loop over the attributes of a response is followed call by call:
each attribute takes at least four bytes of the body, and the first that
cannot be read is the last that is tried.
-/

namespace P2pTunnler

/-! ## Panic-freedom -/

def PanicFree {α : Type} (x : Except Fault α) : Prop := x ≠ .error .panic

section
variable {α β : Type}

@[simp] theorem panicFree_ok (a : α) : PanicFree (.ok a : Except Fault α) := by
  simp [PanicFree]

@[simp] theorem panicFree_error (kind : ErrorKind) (reason : String) :
    PanicFree (.error (.error kind reason) : Except Fault α) := by
  simp [PanicFree]

theorem PanicFree.of_ok {x : Except Fault α} {a : α} (h : x = .ok a) : PanicFree x := by
  simp [h]

theorem PanicFree.bind {x : Except Fault α} {f : α → Except Fault β} (hx : PanicFree x)
    (hf : ∀ a, x = .ok a → PanicFree (f a)) : PanicFree (x >>= f) := by
  cases x with
  | ok a => exact hf a rfl
  | error e => exact fun h => hx (congrArg Except.error (Except.error.inj h))

-- the last step of a `do` block
theorem PanicFree.map {x : Except Fault α} (hx : PanicFree x) (f : α → β) :
    PanicFree (x >>= fun a => pure (f a)) := by
  apply hx.bind
  intro a _
  exact panicFree_ok (f a)

theorem PanicFree.ite {p : Prop} [Decidable p] {x y : Except Fault α} (hx : p → PanicFree x)
    (hy : ¬p → PanicFree y) : PanicFree (if p then x else y) := by
  by_cases hp : p
  · rw [if_pos hp]
    exact hx hp
  · rw [if_neg hp]
    exact hy hp

end

theorem panicFree_byteAt {bytes : Bytes} {i : Nat} (h : i < bytes.length) : PanicFree (byteAt bytes i) :=
  .of_ok (Attribute.byteAt_of_lt h)

theorem panicFree_copyFromSlice {n : Nat} {bytes : Bytes} (h : bytes.length = n) :
    PanicFree (copyFromSlice n bytes) := by
  rw [copyFromSlice, dif_pos h]
  simp

theorem panicFree_slice {bytes : Bytes} {start stop : Nat} (h : start ≤ stop) (hl : stop ≤ bytes.length) :
    PanicFree (slice bytes start stop) :=
  .of_ok (Attribute.slice_eq_ok.mpr ⟨h, hl, rfl⟩)

theorem panicFree_okOr {α : Type} (o : Option α) (kind : ErrorKind) (reason : String) :
    PanicFree (okOr o (.error kind reason)) := by
  cases o <;> simp [okOr]

namespace Cursor

theorem panicFree_readExact (c : Cursor) (n : Nat) : PanicFree (c.readExact n) := by
  unfold readExact
  split <;> simp

theorem panicFree_readU16 (c : Cursor) : PanicFree c.readU16 := (c.panicFree_readExact 2).map _

theorem panicFree_readU64 (c : Cursor) : PanicFree c.readU64 := (c.panicFree_readExact 8).map _

end Cursor

/-! ## One attribute -/

namespace Attribute

theorem panicFree_xorAddress {β : Type} {value : Bytes} {key : Octets 16} {n : Nat} (hv : value.length = n + 4)
    (hn : n ≤ 16) (f : Octets n → β) : PanicFree (do
      let address ← copyFromSlice n (← xorFrom value key.toList 0 n)
      return f address) := by
  have hx : xorFrom value key.toList 0 n = .ok (xorBytes (key.toList.drop 0) ((value.drop (0 + 4)).take n)) :=
    xorFrom_eq (by omega) (by simpa using hn) (by omega)
  apply (PanicFree.of_ok hx).bind
  intro bytes hb
  rw [hx] at hb
  cases hb
  apply PanicFree.map
  apply panicFree_copyFromSlice
  simp [xorBytes, hv, hn]

theorem panicFree_readXorAddress (value : Bytes) (key : Octets 16) : PanicFree (readXorAddress value key) := by
  unfold readXorAddress
  split
  · simp
  · rename_i hv
    have hk : key.toList.length = 16 := key.length_toList
    apply (panicFree_byteAt (by omega)).bind
    intro high _
    apply (panicFree_byteAt (by omega)).bind
    intro low _
    apply (panicFree_byteAt (by omega)).bind
    intro keyHigh _
    apply (panicFree_byteAt (by omega)).bind
    intro keyLow _
    apply (panicFree_byteAt (by omega)).bind
    intro family _
    split
    · rename_i h4
      exact panicFree_xorAddress h4.2 (by decide) _
    · split
      · rename_i h16
        exact panicFree_xorAddress h16.2 (by decide) _
      · split <;> simp

theorem panicFree_readAddress (value : Bytes) : PanicFree (readAddress value) := by
  unfold readAddress
  split
  · simp
  · rename_i hv
    apply (panicFree_byteAt (by omega)).bind
    intro high _
    apply (panicFree_byteAt (by omega)).bind
    intro low _
    apply (panicFree_byteAt (by omega)).bind
    intro family _
    split
    · rename_i h4
      apply (panicFree_byteAt (by omega)).bind
      intro a _
      apply (panicFree_byteAt (by omega)).bind
      intro b _
      apply (panicFree_byteAt (by omega)).bind
      intro c _
      apply (panicFree_byteAt (by omega)).map
    · split
      · rename_i h16
        apply (panicFree_slice (by omega) (Nat.le_refl _)).bind
        intro bytes hb
        obtain ⟨-, -, rfl⟩ := slice_eq_ok.mp hb
        apply PanicFree.map
        apply panicFree_copyFromSlice
        simp [h16.2]
      · split <;> simp

theorem panicFree_readChangeRequest (value : Bytes) : PanicFree (readChangeRequest value) := by
  unfold readChangeRequest
  split
  · dsimp only
    split
    · simp
    · split
      · simp
      · split <;> simp
  · simp

theorem panicFree_ofValue (typ : UInt16) (value : Bytes) (key : Octets 16) : PanicFree (ofValue typ value key) := by
  have haddress (mk : SocketAddr → Attribute) : PanicFree (do return mk (← readAddress value)) :=
    (panicFree_readAddress value).map mk
  unfold ofValue
  refine .ite (fun _ => (panicFree_readXorAddress value key).map _) fun _ => ?_
  refine .ite (fun _ => haddress _) fun _ => ?_
  refine .ite (fun _ => haddress _) fun _ => ?_
  refine .ite (fun _ => haddress _) fun _ => ?_
  refine .ite (fun _ => haddress _) fun _ => ?_
  refine .ite (fun _ => haddress _) fun _ => ?_
  refine .ite (fun _ => ?_) fun _ => ?_
  · refine .ite (fun _ => panicFree_error _ _) fun hl => ?_
    exact (panicFree_copyFromSlice (not_not.mp hl)).map _
  refine .ite (fun _ => (panicFree_readChangeRequest value).map _) fun _ => ?_
  exact .ite (fun _ => panicFree_error _ _) fun _ => panicFree_ok _

/-- The value that is cut out ends before its padding does, and that is inside the buffer. -/
theorem panicFree_read (c : Cursor) (key : Octets 16) : PanicFree (read c key) := by
  unfold read
  apply c.panicFree_readU16.bind
  intro ⟨typ, c₁⟩ _
  apply c₁.panicFree_readU16.bind
  intro ⟨len, c₂⟩ _
  apply (panicFree_okOr _ _ _).bind
  intro paddedLength hpl
  apply (panicFree_okOr _ _ _).bind
  intro stop hstop
  apply (panicFree_okOr _ _ _).bind
  intro paddedEnd hpad
  split
  · simp
  · rename_i hend
    obtain ⟨l, hl, rfl⟩ := Option.map_eq_some_iff.mp (okOr_eq_ok.mp hpl)
    obtain ⟨-, rfl⟩ := checkedAdd_eq_some.mp hl
    obtain ⟨-, rfl⟩ := checkedAdd_eq_some.mp (okOr_eq_ok.mp hstop)
    obtain ⟨-, rfl⟩ := checkedAdd_eq_some.mp (okOr_eq_ok.mp hpad)
    apply (panicFree_slice (by omega) (by omega)).bind
    intro value _
    exact (panicFree_ofValue typ value key).map _

/-- A successful read takes a multiple of four bytes. -/
theorem read_aligned {c c' : Cursor} {key : Octets 16} {attr : Attribute} (h : read c key = .ok (attr, c')) :
    c'.pos % 4 = c.pos % 4 := by
  obtain ⟨hbuf, hadv, hle⟩ := read_advances h
  obtain ⟨typ, value, padding, -, hp, -, hrest⟩ := read_sound h
  have hlen := congrArg List.length hrest
  simp only [Cursor.rest, hbuf, List.length_drop, List.length_append, BigEndian.length_be16] at hlen
  omega

theorem read_forward {c c' : Cursor} {key : Octets 16} {attr : Attribute} (h : read c key = .ok (attr, c'))
    (ha : c.pos % 4 = 0) : c.pos + 4 ≤ c'.pos ∧ c'.pos % 4 = 0 ∧ c'.pos ≤ c.buf.length := by
  obtain ⟨-, hadv, hle⟩ := read_advances h
  exact ⟨hadv, (read_aligned h).trans ha, hle⟩

end Attribute

/-! ## The attribute loop -/

namespace StunCodec

/-- One call of `Attribute::read`: the cursor it was given, and what came of it. -/
structure ReadCall where
  cursor : Cursor
  result : Except Fault (Attribute × Cursor)

/-- The loop of `read_binding_response` from `c` on, with every read it makes. A read that panics has
no rule: the loop would not get past it. -/
inductive AttributeLoop (key : Octets 16) : Cursor → Addresses → List ReadCall → Except Fault Addresses → Prop
  | done {c acc} : ¬c.pos < c.buf.length → AttributeLoop key c acc [] (.ok acc)
  | next {c acc attr c' acc' calls r} : c.pos < c.buf.length → Attribute.read c key = .ok (attr, c') →
    acc.insert attr = .ok acc' → AttributeLoop key c' acc' calls r →
    AttributeLoop key c acc (⟨c, .ok (attr, c')⟩ :: calls) r
  | unwanted {c acc attr c' e} : c.pos < c.buf.length → Attribute.read c key = .ok (attr, c') →
    acc.insert attr = .error e → AttributeLoop key c acc [⟨c, .ok (attr, c')⟩] (.error e)
  | unreadable {c acc kind reason} : c.pos < c.buf.length → Attribute.read c key = .error (.error kind reason) →
    AttributeLoop key c acc [⟨c, .error (.error kind reason)⟩] (.error unknownMandatory)

section
variable {key : Octets 16} {c : Cursor} {acc : Addresses} {calls : List ReadCall} {r : Except Fault Addresses}

theorem AttributeLoop.eq (h : AttributeLoop key c acc calls r) : readAttributes c key acc = r := by
  induction h with
  | done hp => rw [readAttributes, if_neg hp]
  | next hp hr hi _ ih =>
    rw [readAttributes, if_pos hp]
    split <;> simp_all
  | unwanted hp hr hi =>
    rw [readAttributes, if_pos hp]
    split <;> simp_all
  | unreadable hp hr =>
    rw [readAttributes, if_pos hp]
    split <;> simp_all

/-- The loop gets to its end from wherever it is. -/
theorem attributeLoop_exists (key : Octets 16) (c : Cursor) (acc : Addresses) :
    ∃ calls r, AttributeLoop key c acc calls r := by
  generalize hn : c.buf.length - c.pos = n
  induction n using Nat.strongRecOn generalizing c acc with
  | _ n ih =>
    by_cases hp : c.pos < c.buf.length
    · cases hr : Attribute.read c key with
      | error e =>
        cases e with
        | panic => exact absurd hr (Attribute.panicFree_read c key)
        | error kind reason => exact ⟨_, _, .unreadable hp hr⟩
      | ok p =>
        obtain ⟨attr, c'⟩ := p
        obtain ⟨hb, hadv, hle⟩ := Attribute.read_advances hr
        cases hi : acc.insert attr with
        | error e => exact ⟨_, _, .unwanted hp hr hi⟩
        | ok acc' =>
          obtain ⟨calls, r, hl⟩ := ih (c'.buf.length - c'.pos) (by rw [hb]; omega) c' acc' rfl
          exact ⟨_, _, .next hp hr hi hl⟩
    · exact ⟨_, _, .done hp⟩

theorem insert_panicFree (acc : Addresses) (attr : Attribute) : PanicFree (acc.insert attr) := by
  cases attr <;> simp [Addresses.insert, unknownMandatory]

theorem AttributeLoop.panicFree (h : AttributeLoop key c acc calls r) : PanicFree r := by
  induction h with
  | done hp => simp
  | next _ _ _ _ ih => exact ih
  | @unwanted c acc attr c' e hp hr hi => exact hi ▸ insert_panicFree acc attr
  | unreadable hp hr => simp [unknownMandatory]

/-! ## How many reads there are -/

theorem AttributeLoop.forward (h : AttributeLoop key c acc calls r) (ha : c.pos % 4 = 0) :
    ∀ call ∈ calls, ∀ attr c', call.result = .ok (attr, c') →
      call.cursor.pos + 4 ≤ c'.pos ∧ c'.pos % 4 = 0 ∧ c'.pos ≤ c.buf.length := by
  induction h with
  | done hp => simp
  | next hp hr hi _ ih =>
    have hf := Attribute.read_forward hr ha
    rw [(Attribute.read_advances hr).1] at ih
    rw [List.forall_mem_cons]
    refine ⟨?_, ih hf.2.1⟩
    rintro _ _ ⟨⟩
    exact hf
  | unwanted hp hr hi =>
    rw [List.forall_mem_singleton]
    rintro _ _ ⟨⟩
    exact Attribute.read_forward hr ha
  | unreadable hp hr => simp

theorem AttributeLoop.four_mul_successes_le (h : AttributeLoop key c acc calls r) :
    4 * (calls.countP fun call => call.result.isOk) ≤ c.buf.length - c.pos := by
  induction h with
  | done hp => simp
  | next hp hr hi _ ih =>
    obtain ⟨hb, hadv, hle⟩ := Attribute.read_advances hr
    rw [hb] at ih
    rw [List.countP_cons_of_pos rfl]
    omega
  | unwanted hp hr hi =>
    obtain ⟨-, hadv, hle⟩ := Attribute.read_advances hr
    rw [List.countP_cons_of_pos rfl, List.countP_nil]
    omega
  | unreadable hp hr =>
    rw [List.countP_cons_of_neg (by simp [Except.isOk, Except.toBool]), List.countP_nil]
    omega

theorem AttributeLoop.failure_is_last (h : AttributeLoop key c acc calls r) :
    ∀ before call after, calls = before ++ call :: after → call.result.isOk = false → after = [] := by
  induction h with
  | done hp => simp
  | next hp hr hi _ ih =>
    intro before call after he hf
    cases before with
    | nil =>
      cases he
      cases hf
    | cons first before =>
      rw [List.cons_append, List.cons.injEq] at he
      exact ih before call after he.2 hf
  | unwanted hp hr hi =>
    intro before call after he hf
    cases before <;> simp_all
  | unreadable hp hr =>
    intro before call after he hf
    cases before <;> simp_all

end

theorem failures_le_one {calls : List ReadCall}
    (h : ∀ before call after, calls = before ++ call :: after → call.result.isOk = false → after = []) :
    (calls.countP fun call => !call.result.isOk) ≤ 1 := by
  induction calls with
  | nil => simp
  | cons call calls ih =>
    cases hc : call.result.isOk with
    | false =>
      obtain rfl := h [] call calls rfl hc
      simp [hc]
    | true =>
      rw [List.countP_cons_of_neg (by simp [hc])]
      apply ih
      intro before failed after he hf
      exact h (call :: before) failed after (by rw [he, List.cons_append]) hf

/-- The reads of one loop over `body`, which starts at its first byte. -/
structure ReadsInBounds (body : Bytes) (calls : List ReadCall) : Prop where
  forward : ∀ call ∈ calls, ∀ attr c', call.result = .ok (attr, c') →
    call.cursor.pos + 4 ≤ c'.pos ∧ c'.pos % 4 = 0 ∧ c'.pos ≤ body.length
  successes : (calls.countP fun call => call.result.isOk) ≤ body.length / 4
  failures : (calls.countP fun call => !call.result.isOk) ≤ 1
  failure_is_last : ∀ before call after, calls = before ++ call :: after → call.result.isOk = false → after = []

theorem AttributeLoop.inBounds {key : Octets 16} {body : Bytes} {acc : Addresses} {calls : List ReadCall}
    {r : Except Fault Addresses} (h : AttributeLoop key (.new body) acc calls r) : ReadsInBounds body calls where
  forward := h.forward rfl
  successes := by
    have hs := h.four_mul_successes_le
    simp only [Cursor.new] at hs
    omega
  failures := failures_le_one h.failure_is_last
  failure_is_last := h.failure_is_last

/-! ## The whole message -/

theorem panicFree_readAttributes (c : Cursor) (key : Octets 16) (acc : Addresses) :
    PanicFree (readAttributes c key acc) := by
  obtain ⟨calls, r, h⟩ := attributeLoop_exists key c acc
  rw [h.eq]
  exact h.panicFree

theorem panicFree_readBindingResponse (c : Cursor) (key : Octets 16) : PanicFree (readBindingResponse c key) := by
  apply (panicFree_readAttributes c key _).bind
  intro acc _
  exact (panicFree_okOr acc.mapped _ _).map _

theorem panicFree_readHeader (msg : Bytes) : PanicFree (readHeader msg) := by
  apply (Cursor.panicFree_readU16 _).bind
  intro ⟨msgType, c₁⟩ _
  apply (Cursor.panicFree_readU16 _).bind
  intro ⟨messageLength, c₂⟩ _
  apply (Cursor.panicFree_readU64 _).bind
  intro ⟨transId1, c₃⟩ _
  exact (Cursor.panicFree_readU64 _).map _

theorem panicFree_decodeConst (expectedId : UInt64) (msg : Bytes) : PanicFree (decodeConst expectedId msg) := by
  apply (panicFree_readHeader msg).bind
  intro ⟨msgType, messageLength, transId1, transId2⟩ _
  refine .ite (fun _ => panicFree_ok _) fun _ => ?_
  refine .ite (fun _ => panicFree_error _ _) fun _ => ?_
  apply (panicFree_okOr _ _ _).bind
  intro messageEnd hend
  obtain ⟨-, rfl⟩ := Attribute.checkedAdd_eq_some.mp (Attribute.okOr_eq_ok.mp hend)
  refine .ite (fun _ => panicFree_error _ _) fun hlen => ?_
  apply (PanicFree.of_ok (fillXorKey_eq transId1 transId2)).bind
  intro xorKey _
  apply (panicFree_slice (by omega) (Nat.le_refl _)).bind
  intro body _
  refine .ite (fun _ => (panicFree_readBindingResponse _ _).map _) fun _ => ?_
  refine .ite (fun _ => panicFree_error _ _) fun _ => ?_
  refine .ite (fun _ => panicFree_error _ _) fun _ => ?_
  exact .ite (fun _ => panicFree_error _ _) fun _ => panicFree_error _ _

/-- Nothing panics on any message; and over any body the attribute loop comes to its end, with reads
that keep to `ReadsInBounds`. -/
theorem decodeConst_total (expectedId : UInt64) (msg : Bytes) :
    PanicFree (decodeConst expectedId msg) ∧
      ∀ (key : Octets 16) (body : Bytes),
        (∃ calls r, AttributeLoop key (.new body) ⟨none, none, none, none⟩ calls r) ∧
          ∀ calls r, AttributeLoop key (.new body) ⟨none, none, none, none⟩ calls r →
            readAttributes (.new body) key ⟨none, none, none, none⟩ = r ∧ ReadsInBounds body calls := by
  refine ⟨panicFree_decodeConst expectedId msg, fun key body => ⟨attributeLoop_exists key _ _, ?_⟩⟩
  intro calls r h
  exact ⟨h.eq, h.inBounds⟩

end StunCodec

end P2pTunnler
