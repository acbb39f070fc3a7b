import P2pTunnler.ServiceLemmas
import P2pTunnler.PathsSound
import P2pTunnler.Lib.Project

/-!
# The listener among the other tasks

`listen_for_peer_candidates` gives up the locks between reading the candidate
set, replacing it and telling the prober, and the other tasks go on meanwhile.
Still it does to each value what it would do in one go: a run of a connection
is, for the listener, a run of the listener alone over the same values.
-/

namespace P2pTunnler

open Finset (Enumerates)

section
variable {κ : Type} {P : Endpoint κ} {s s' : ConnState} {e : ConnEvent} {o : ConnOut} {l : ListenerState}

/-- A value, the clock when it was handled, and the record it was. -/
structure Taken where
  value : Bytes
  now : Int
  message : Message

/-- Where the listener of a connection is, against one that handles each value in one go: `[d]` is what is under way. -/
inductive Under (P : Endpoint κ) (l : ListenerState) (s : ConnState) : List Taken → Prop
  | waiting (hl : s.listener = .waiting) (ht : s.lastTimestamp = l.lastTimestamp)
    (ha : s.connections.advertised = l.connections.advertised) : Under P l s []
  | reading {d : Taken} (hl : s.listener = .reading d.message)
    (hrec : P.receive l.lastTimestamp d.value d.now = some d.message)
    (ht : s.lastTimestamp = some d.message.timestamp)
    (ha : s.connections.advertised = l.connections.advertised) : Under P l s [d]
  | replacing {d : Taken} {known : List SocketAddr}
    (hl : s.listener = .replacing d.message (P.flags.updatedPeers d.message known))
    (hrec : P.receive l.lastTimestamp d.value d.now = some d.message)
    (ht : s.lastTimestamp = some d.message.timestamp)
    (hk : Enumerates known l.connections.advertised) : Under P l s [d]
  | updating {d : Taken} {known : List SocketAddr}
    (hl : s.listener = .updating d.message (P.flags.updatedPeers d.message known))
    (hrec : P.receive l.lastTimestamp d.value d.now = some d.message)
    (ht : s.lastTimestamp = some d.message.timestamp)
    (hk : Enumerates known l.connections.advertised)
    (ha : s.connections.advertised = P.flags.updatedPeers d.message known) : Under P l s [d]

theorem Under.kept {ds : List Taken} (h : Under P l s ds) (hl : s'.listener = s.listener)
    (ht : s'.lastTimestamp = s.lastTimestamp) (ha : s'.connections.advertised = s.connections.advertised) :
    Under P l s' ds := by
  cases h with
  | waiting h₁ h₂ h₃ => exact .waiting (hl.trans h₁) (ht.trans h₂) (ha.trans h₃)
  | reading h₁ h₂ h₃ h₄ => exact .reading (hl.trans h₁) h₂ (ht.trans h₃) (ha.trans h₄)
  | replacing h₁ h₂ h₃ h₄ => exact .replacing (hl.trans h₁) h₂ (ht.trans h₃) h₄
  | updating h₁ h₂ h₃ h₄ h₅ => exact .updating (hl.trans h₁) h₂ (ht.trans h₃) h₄ (ha.trans h₅)

theorem Under.nil_iff {ds : List Taken} (h : Under P l s ds) : s.listener = .waiting ↔ ds = [] := by
  cases h with
  | waiting hl => simp [hl]
  | reading hl => simp [hl]
  | replacing hl => simp [hl]
  | updating hl => simp [hl]

theorem lastTimestamp_kept (h : (connection P).step s e = some (s', o)) (hl : ∀ e', e ≠ .listener e') :
    s'.lastTimestamp = s.lastTimestamp := by
  cases e with
  | listener e => exact absurd rfl (hl e)
  | handler e =>
    rcases handlerStep_cases h with ⟨_, _, _, _, _, _, rfl⟩ | ⟨_, _, _, _, _, _, _, rfl⟩ | ⟨_, _, _, _, _, _, rfl⟩ |
      ⟨_, _, _, he⟩
    · rfl
    · rfl
    · rfl
    · cases he
      rfl
  | inbound e =>
    rcases inboundStep_cases h with ⟨_, _, _, _, _, _, rfl⟩ | ⟨_, _, _, _, rfl⟩ | ⟨rfl, _⟩ |
      ⟨_, _, _, _, _, _, rfl⟩ <;> rfl
  | loopback e =>
    rcases loopbackStep_cases h with ⟨_, _, _, _, _, rfl⟩ | ⟨_, _, _, _, _, _, _, rfl⟩ | ⟨_, _, _, _, he⟩
    · rfl
    · rfl
    · cases he
      rfl
  | scheduler e =>
    rcases schedulerStep_cases h with ⟨_, _, _, _, _, rfl⟩ | ⟨_, _, _, he⟩
    · rfl
    · cases he
      rfl
  | socket e =>
    rcases socketStep_cases h with ⟨_, _, _, _, _, _, _, _, rfl⟩ | ⟨_, _, _, rfl⟩ | ⟨_, _, _, _, _, rfl⟩ |
      ⟨_, _, _, _, _, _, rfl⟩ <;> rfl

/-! ## The simulation -/

def arrival (en : ConnEntry) : Option (Bytes × Int) :=
  match en.event with
  | .listener (.value value now) => some (value, now)
  | _ => none

def taken (en : ConnEntry) : Option Message :=
  match en.out with
  | .accepted m => some m
  | _ => none

def handled (en : ListenerEntry) : Bytes × Int := (en.event.value, en.event.now)

structure Tracks (P : Endpoint κ) (tr : List ConnEntry) (s : ConnState) (atr : List ListenerEntry) (l : ListenerState) :
    Prop where
  token : s.probes.remoteToken = l.probes.remoteToken
  keys : s.probes.paths.keys = l.probes.paths.keys
  under : ∃ ds, Under P l s ds ∧ tr.filterMap arrival = atr.map handled ++ ds.map (fun d => (d.value, d.now)) ∧
    tr.filterMap taken = accepted atr ++ ds.map Taken.message

variable {tr : List ConnEntry} {atr : List ListenerEntry}

theorem value_cases {value : Bytes} {now : Int} (h : listenerStep P s (.value value now) = some (s', o)) :
    s.listener = .waiting ∧
      ((P.receive s.lastTimestamp value now = none ∧ s' = s ∧ o = .silent) ∨
        ∃ m, P.receive s.lastTimestamp value now = some m ∧ o = .accepted m ∧
          s' = { s with lastTimestamp := some m.timestamp, listener := .reading m }) := by
  simp only [listenerStep] at h
  split at h
  · rename_i hw
    refine ⟨hw, ?_⟩
    split at h
    · rename_i hrec
      cases h
      exact .inl ⟨hrec, rfl, rfl⟩
    · rename_i m hrec
      cases h
      exact .inr ⟨m, hrec, rfl, rfl⟩
  · cases h

/-- A step that shows no value and takes no record, with whatever is under way after it. -/
theorem Tracks.stutter (h : Tracks P tr s atr l) (ht : s'.probes.remoteToken = s.probes.remoteToken)
    (hk : s'.probes.paths.keys = s.probes.paths.keys) (ha : arrival ⟨s, e, o, s'⟩ = none)
    (ho : taken ⟨s, e, o, s'⟩ = none) (hu : ∀ ds, Under P l s ds → Under P l s' ds) :
    Tracks P (tr ++ [⟨s, e, o, s'⟩]) s' atr l := by
  obtain ⟨ds, hds, hv, hm⟩ := h.under
  refine ⟨ht.trans h.token, hk.trans h.keys, ds, hu ds hds, ?_, ?_⟩
  · rw [List.filterMap_append, List.filterMap_cons_none ha, List.filterMap_nil, List.append_nil, hv]
  · rw [List.filterMap_append, List.filterMap_cons_none ho, List.filterMap_nil, List.append_nil, hm]

theorem Tracks.aside (h : Tracks P tr s atr l) (hst : (connection P).step s e = some (s', o))
    (hl : ∀ e', e ≠ .listener e') : Tracks P (tr ++ [⟨s, e, o, s'⟩]) s' atr l := by
  obtain ⟨hout, hlis, hadv⟩ := (connection_owns hst).1.resolve_left fun ⟨e', he⟩ => hl e' he
  obtain ⟨hk, ht⟩ := (connection_paths hst).resolve_left fun ⟨e', he⟩ => hl e' he
  refine h.stutter ht hk ?_ ?_ fun ds hds => hds.kept hlis (lastTimestamp_kept hst hl) hadv
  · cases e with
    | listener e => exact absurd rfl (hl e)
    | _ => rfl
  · cases o with
    | accepted m => cases hout
    | _ => rfl

theorem Tracks.value {value : Bytes} {now : Int} (h : Tracks P tr s atr l)
    (hst : listenerStep P s (.value value now) = some (s', o)) :
    Tracks P (tr ++ [⟨s, .listener (.value value now), o, s'⟩]) s' atr l ∨
      ∃ d out l', P.listener.step l d = some (l', out) ∧
        Tracks P (tr ++ [⟨s, .listener (.value value now), o, s'⟩]) s' (atr ++ [⟨l, d, out, l'⟩]) l' := by
  obtain ⟨ds, hds, hv, hm⟩ := h.under
  obtain ⟨hw, hcase⟩ := value_cases hst
  obtain rfl := hds.nil_iff.mp hw
  obtain ⟨-, hlast, hadv⟩ : s.listener = .waiting ∧ s.lastTimestamp = l.lastTimestamp ∧
      s.connections.advertised = l.connections.advertised := by
    cases hds with
    | waiting h₁ h₂ h₃ => exact ⟨h₁, h₂, h₃⟩
  rcases hcase with ⟨hrec, rfl, rfl⟩ | ⟨m, hrec, rfl, rfl⟩
  · refine .inr ⟨⟨value, now, [], [], 0⟩, none, l, ?_, h.token, h.keys, [], hds, ?_, ?_⟩
    · rw [hlast] at hrec
      simp only [Endpoint.listener, hrec]
    · simp [hv, arrival, handled]
    · simp [hm, taken, accepted]
  · refine .inl ⟨h.token, h.keys, [⟨value, now, m⟩], .reading rfl (hlast ▸ hrec) rfl hadv, ?_, ?_⟩
    · simp [hv, arrival]
    · simp [hm, taken]

theorem Under.read {m : Message} {known : List SocketAddr} (hl : s.listener = .reading m)
    (hk : Enumerates known s.connections.advertised) {ds : List Taken} (h : Under P l s ds) :
    Under P l { s with
      listener := if s.connections.advertised ≠ P.flags.updatedPeers m known
        then .replacing m (P.flags.updatedPeers m known)
        else .updating m (P.flags.updatedPeers m known) } ds := by
  cases h with
  | @reading d h₁ hrec ht ha =>
    cases h₁.symm.trans hl
    by_cases hc : s.connections.advertised = P.flags.updatedPeers d.message known
    · exact .updating (by simp [hc]) hrec ht (ha ▸ hk) hc
    · exact .replacing (by simp [hc]) hrec ht (ha ▸ hk)
  | waiting h₁ => cases h₁.symm.trans hl
  | replacing h₁ => cases h₁.symm.trans hl
  | updating h₁ => cases h₁.symm.trans hl

theorem Under.replace {m : Message} {updated : Finset SocketAddr} (hl : s.listener = .replacing m updated)
    {ds : List Taken} (h : Under P l s ds) :
    Under P l { s with connections := s.connections.replaceAdvertised updated, listener := .updating m updated } ds := by
  cases h with
  | replacing h₁ hrec ht hk =>
    cases h₁.symm.trans hl
    exact .updating rfl hrec ht hk (by simp)
  | waiting h₁ => cases h₁.symm.trans hl
  | reading h₁ => cases h₁.symm.trans hl
  | updating h₁ => cases h₁.symm.trans hl

/-- The last step of a value is where it counts as handled. -/
theorem Tracks.update {m : Message} {updated : Finset SocketAddr} {order : List SocketAddr} {instant : Nat}
    (h : Tracks P tr s atr l) (hl : s.listener = .updating m updated) (ho : Enumerates order updated) :
    ∃ d out l', P.listener.step l d = some (l', out) ∧
      Tracks P (tr ++ [⟨s, .listener (.update order instant), .updated m, { s with
        probes := s.probes.updateRemote (P.enc.remoteToken m) order instant, listener := .waiting }⟩])
        { s with probes := s.probes.updateRemote (P.enc.remoteToken m) order instant, listener := .waiting }
        (atr ++ [⟨l, d, out, l'⟩]) l' := by
  obtain ⟨ds, hds, hv, hm⟩ := h.under
  cases hds with
  | waiting h₁ => cases h₁.symm.trans hl
  | reading h₁ => cases h₁.symm.trans hl
  | replacing h₁ => cases h₁.symm.trans hl
  | @updating d known h₁ hrec ht hk ha =>
    cases h₁.symm.trans hl
    refine ⟨⟨d.value, d.now, known, order, instant⟩, some d.message,
      ⟨some d.message.timestamp, l.connections.refresh (P.flags.updatedPeers d.message known),
        l.probes.updateRemote (P.enc.remoteToken d.message) order instant⟩, ?_, ?_⟩
    · simp only [Endpoint.listener, hrec]
      rw [if_pos ⟨hk, ho⟩]
    · have hcard := P.flags.card_updatedPeers d.message known
      refine ⟨?_, ?_, [], .waiting rfl ht ?_, ?_, ?_⟩
      · simp
      · simp only [updateRemote_keys _ _ ho hcard]
      · rw [CandidateSet.refresh_advertised]
        exact ha
      · simp [hv, arrival, handled]
      · simp [hm, taken, accepted]

theorem Tracks.step (h : Tracks P tr s atr l) (hst : (connection P).step s e = some (s', o)) :
    Tracks P (tr ++ [⟨s, e, o, s'⟩]) s' atr l ∨
      ∃ d out l', P.listener.step l d = some (l', out) ∧
        Tracks P (tr ++ [⟨s, e, o, s'⟩]) s' (atr ++ [⟨l, d, out, l'⟩]) l' := by
  by_cases hl : ∃ e', e = .listener e'
  · obtain ⟨e, rfl⟩ := hl
    rcases listenerStep_cases hst with ⟨value, now, rfl, _⟩ | ⟨value, now, m, rfl, _⟩ | ⟨known, m, rfl, hl, hk, rfl, rfl⟩ |
      ⟨m, updated, rfl, hl, _, rfl, rfl⟩ | ⟨order, instant, m, updated, rfl, hl, ho, rfl, rfl⟩
    · exact h.value hst
    · exact h.value hst
    · exact .inl (h.stutter rfl rfl rfl rfl fun ds hds => hds.read hl hk)
    · exact .inl (h.stutter rfl rfl rfl rfl fun ds hds => hds.replace hl)
    · exact .inr (h.update hl ho)
  · exact .inl (h.aside hst fun e' he => hl ⟨e', he⟩)

theorem exists_tracks {tok : Token} (hr : (connection P).Run (.new tok) tr s) :
    ∃ atr l, P.listener.Run (.new tok) atr l ∧ Tracks P tr s atr l :=
  hr.simulate (R := Tracks P) ⟨rfl, rfl, [], .waiting rfl rfl rfl, rfl, rfl⟩ Tracks.step

/-- The same timestamp, advertised set, remote token and probed addresses. -/
structure Agrees (s l : ListenerState) : Prop where
  lastTimestamp : s.lastTimestamp = l.lastTimestamp
  advertised : s.connections.advertised = l.connections.advertised
  remoteToken : s.probes.remoteToken = l.probes.remoteToken
  paths : s.probes.paths.keys = l.probes.paths.keys

theorem Agrees.reflects {s l : ListenerState} {m : Message} (h : Agrees s l) (hr : Reflects P m l) : Reflects P m s :=
  ⟨h.advertised.trans hr.advertised, h.remoteToken.trans hr.remoteToken, h.paths.trans hr.paths⟩

theorem exists_alone {tok : Token} (hr : (connection P).Run (.new tok) tr s) (hw : s.listener = .waiting) :
    ∃ atr l, P.listener.Run (.new tok) atr l ∧ atr.map handled = tr.filterMap arrival ∧
      accepted atr = tr.filterMap taken ∧ Agrees s.listenerState l := by
  obtain ⟨atr, l, hrun, htracks⟩ := exists_tracks hr
  obtain ⟨ds, hds, hv, hm⟩ := htracks.under
  obtain rfl := hds.nil_iff.mp hw
  cases hds with
  | waiting _ ht ha =>
    refine ⟨atr, l, hrun, ?_, ?_, ht, ha, htracks.token, htracks.keys⟩
    · simpa using hv.symm
    · simpa using hm.symm

/-- **The listener works as if it were alone.** Whenever it waits for the next
value, it has done to the values so far, whatever the other tasks did between
its steps, what it would have done to each of them in one go. So, when old
addresses are cleared, the newest of the records offered to it is in force. -/
theorem listener_refines {tok : Token} (hr : (connection P).Run (.new tok) tr s) (hw : s.listener = .waiting) :
    (∃ atr l, P.listener.Run (.new tok) atr l ∧ atr.map handled = tr.filterMap arrival ∧
      accepted atr = tr.filterMap taken ∧ Agrees s.listenerState l) ∧
    (P.flags.noClear = false → ∀ records,
      (∀ d ∈ tr.filterMap arrival, Offers P records ⟨d.1, d.2, [], [], 0⟩) →
      (∀ m ∈ records, ∃ d ∈ tr.filterMap arrival, P.decode d.1 = some m) →
      records = [] ∨ ∃ m ∈ records, Reflects P m s.listenerState ∧ ∀ m' ∈ records, m'.timestamp ≤ m.timestamp) := by
  refine ⟨exists_alone hr hw, ?_⟩
  intro hclear records hoffers hall
  obtain ⟨atr, l, hrun, hv, -, hagrees⟩ := exists_alone hr hw
  rw [← hv] at hoffers hall
  have hd : ∀ en ∈ atr, Offers P records en.event := fun en hen => hoffers _ (List.mem_map_of_mem hen)
  have hoffered : ∀ m ∈ records, ∃ en ∈ atr, P.decode en.event.value = some m := by
    intro m hm
    obtain ⟨d, hd, hdec⟩ := hall m hm
    obtain ⟨en, hen, rfl⟩ := List.mem_map.mp hd
    exact ⟨en, hen, hdec⟩
  rcases newest_in_force hclear rfl hrun hd hoffered with ⟨hnil, -⟩ | ⟨m, hm, hrefl, hmax⟩
  · exact .inl hnil
  · exact .inr ⟨m, hm, hagrees.reflects hrefl, hmax⟩

end

def ListenerTask.idle : ListenerTask → Bool
  | waiting => true
  | _ => false

theorem ListenerTask.eq_waiting {task : ListenerTask} (h : task.idle = true) : task = .waiting := by
  cases task with
  | waiting => rfl
  | _ => cases h

theorem sampleRecords_refines : ∃ tr s, (connection (sampleEndpoint ⟨false, false⟩)).Run (.new (.fill 7)) tr s ∧
    ∃ atr l, (sampleEndpoint ⟨false, false⟩).listener.Run (.new (.fill 7)) atr l ∧
      atr.map handled = tr.filterMap arrival ∧ accepted atr = tr.filterMap taken ∧ Agrees s.listenerState l :=
  ⟨_, _, Machine.run_of_exec sampleRecords_runs,
    (listener_refines (Machine.run_of_exec sampleRecords_runs) (ListenerTask.eq_waiting (by decide +kernel))).1⟩

end P2pTunnler
