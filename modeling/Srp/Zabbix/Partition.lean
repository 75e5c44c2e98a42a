/-
  Srp/Zabbix/Partition.lean
  =========================
  **A packet parts the selected machines.**

  Every machine that is selected is either exported under a host name of its own
  or skipped for a reason, and all values of the packet are values of exported
  machines (`Partitions`).  The names are compared when they are final, so that
  machines which only the cleaning, the cut to the limit or the mapping gives one
  name are skipped together.
-/
import Srp.Zabbix.Items

namespace Srp.Zabbix

open Srp.Lib Srp.Lib.GroupBy Srp.Lib.IsoTime Srp.Lib.PyNum

section Devices

variable {U : UnicodeData} {rows : List VerdictRow} {cfg : ZabbixConfig} {now : Instant}
  {backoff : List String} {packet : Packet}

/-- A group of machines with one host name is exported or skipped, machine by machine. -/
theorem admitHost_devices (host : String) (group : List (String × VerdictRow)) :
    (admitHost backoff host group).1.map (·.2.device) ++
      (admitHost backoff host group).2.map (·.deviceId) = group.map (·.2.device) := by
  unfold admitHost
  split
  · split_ifs <;> rfl
  · rw [List.map_map]
    rfl

/-- The named machines are exported or skipped. -/
theorem admitted_devices :
    ((exported U rows cfg backoff).map (·.2.device) ++
      ((admitted U rows cfg backoff).flatMap (·.2)).map (·.deviceId)).Perm
      ((namedRows U rows cfg).map (·.2.device)) := by
  have hgroups : (admitted U rows cfg backoff).flatMap
      (fun x => x.1.map (·.2.device) ++ x.2.map (·.deviceId)) =
      ((keys (·.1) (namedRows U rows cfg)).flatMap
        (group (·.1) (namedRows U rows cfg))).map (·.2.device) := by
    rw [admitted, List.flatMap_map, List.map_flatMap]
    exact List.flatMap_congr fun host _ => admitHost_devices host _
  rw [exported, List.map_flatMap, List.map_flatMap]
  refine (List.flatMap_append_perm _ _ _).trans ?_
  rw [hgroups]
  exact (flatMap_keys_perm _ _).map _

theorem namedRows_map_snd :
    (namedRows U rows cfg).map (·.2) =
      (selectedRows rows cfg).filter fun r => (resolveHost U r cfg).isSome := by
  unfold namedRows
  induction selectedRows rows cfg with
  | nil => rfl
  | cons r rest ih =>
    cases hr : resolveHost U r cfg with
    | none => simpa [hr] using ih
    | some host => simpa [hr] using ih

/-- The selected machines are those without a name and those with one. -/
theorem selected_devices :
    (((selectedRows rows cfg).filter fun r => (resolveHost U r cfg).isNone).map (·.device) ++
      (namedRows U rows cfg).map (·.2.device)).Perm
      ((selectedRows rows cfg).map (·.device)) := by
  have hnamed : (namedRows U rows cfg).map (·.2.device) =
      ((selectedRows rows cfg).filter fun r => !(resolveHost U r cfg).isNone).map (·.device) := by
    have hsome : (fun r => (resolveHost U r cfg).isSome) =
        fun r => !(resolveHost U r cfg).isNone := by
      funext r
      cases resolveHost U r cfg <;> rfl
    rw [← hsome, ← namedRows_map_snd, List.map_map]
    rfl
  rw [hnamed, ← List.map_append]
  exact (List.filter_append_perm _ _).map _

theorem packet_devices (h : buildPacket U rows cfg now backoff = .ok packet) :
    (packet.hosts.map (·.2) ++ packet.skipped.map (·.deviceId)).Perm
      ((selectedRows rows cfg).map (·.device)) := by
  unfold buildPacket at h
  obtain ⟨built, hbuilt, h⟩ := bind_eq_ok.mp h
  obtain rfl := Except.ok.inj h
  simp only [List.map_append, List.map_map]
  -- the machines without a name come first among the skipped ones
  refine List.Perm.trans ?_ (selected_devices (U := U))
  refine (List.perm_append_comm_assoc _ _ _).trans (List.Perm.append_left _ ?_)
  exact admitted_devices

end Devices

/-! ### The values of one machine -/

section Items

variable {U : UnicodeData} {rows : List VerdictRow} {cfg : ZabbixConfig} {now : Instant}
  {backoff : List String} {packet : Packet}

/-- Of the values of several machines with different names, those of one. -/
theorem filter_flatten {named : List (String × VerdictRow)} {built : List (List Item)}
    (h : (named.mapM fun e => buildItems U e.2 e.1 now) = .ok built)
    (hnames : (named.map (·.1)).Nodup) {e : String × VerdictRow} (he : e ∈ named) :
    buildItems U e.2 e.1 now = .ok (built.flatten.filter fun i => i.host = e.1) := by
  induction named generalizing built with
  | nil => cases he
  | cons e' named ih =>
    rw [List.mapM_cons] at h
    obtain ⟨items, hitems, h⟩ := bind_eq_ok.mp h
    obtain ⟨rest, hrest, h⟩ := bind_eq_ok.mp h
    obtain rfl := Except.ok.inj h
    obtain ⟨hfresh, hnames⟩ := List.nodup_cons.mp hnames
    rw [List.flatten_cons, List.filter_append]
    rcases List.mem_cons.mp he with rfl | he
    · have hown : items.filter (fun i => i.host = e.1) = items :=
        List.filter_eq_self.mpr fun i hi => by simpa using (buildItems_spec hitems hi).1
      have hothers : rest.flatten.filter (fun i => i.host = e.1) = [] := by
        refine List.filter_eq_nil_iff.mpr fun i hi => ?_
        obtain ⟨items', hitems', hi⟩ := List.mem_flatten.mp hi
        obtain ⟨e', he', hbuilt⟩ := (mapM_ok_mem hrest).mp hitems'
        have hhost := (buildItems_spec hbuilt hi).1
        have hne : i.host ≠ e.1 := by
          intro heq
          exact hfresh (List.mem_map.mpr ⟨e', he', hhost.symm.trans heq⟩)
        simpa using hne
      rw [hown, hothers, List.append_nil]
      exact hitems
    · have hnone : items.filter (fun i => i.host = e.1) = [] := by
        refine List.filter_eq_nil_iff.mpr fun i hi => ?_
        have hhost := (buildItems_spec hitems hi).1
        have hne : i.host ≠ e.1 := by
          intro heq
          exact hfresh (List.mem_map.mpr ⟨e, he, heq.symm.trans hhost⟩)
        simpa using hne
      rw [hnone, List.nil_append]
      exact ih hrest hnames he

/-- The values of the packet under the name of an exported machine are those computed for it. -/
theorem items_of_host (h : buildPacket U rows cfg now backoff = .ok packet)
    {e : String × VerdictRow} (he : e ∈ exported U rows cfg backoff) :
    buildItems U e.2 e.1 now = .ok (packet.items.filter fun i => i.host = e.1) := by
  unfold buildPacket at h
  obtain ⟨built, hbuilt, h⟩ := bind_eq_ok.mp h
  obtain rfl := Except.ok.inj h
  exact filter_flatten hbuilt exported_nodup he

/-- A machine has one state; it has numbers only where that is known. -/
theorem buildItems_state {row : VerdictRow} {host : String} {items : List Item}
    (h : buildItems U row host now = .ok items) :
    (items.filter fun i => i.key = "srp.state") =
        [⟨host, "srp.state", fmtText (freshState row now)⟩] ∧
      ∀ i ∈ items, i.key = "srp.risk" ∨ i.key = "srp.days_left" →
        freshState row now ≠ "unknown" := by
  unfold buildItems at h
  obtain ⟨numbers, hnumbers, h⟩ := bind_eq_ok.mp h
  obtain rfl := Except.ok.inj h
  unfold knownNumbers at hnumbers
  by_cases hstate : freshState row now = "unknown"
  · rw [if_pos hstate] at hnumbers
    obtain rfl := Except.ok.inj hnumbers
    refine ⟨rfl, fun i hi hkey => ?_⟩
    simp only [List.nil_append, List.cons_append, List.mem_cons, List.not_mem_nil,
      or_false] at hi
    rcases hi with rfl | rfl <;> simp at hkey
  · rw [if_neg hstate] at hnumbers
    refine ⟨?_, fun _ _ _ => hstate⟩
    have hnone : numbers.filter (fun i => i.key = "srp.state") = [] := by
      refine List.filter_eq_nil_iff.mpr fun i hi => ?_
      rcases (numericItems_spec hnumbers hi).2 with hkey | hkey <;> simp [hkey]
    simp [hnone]

/-- The values of a machine are computed unless its risk is known and no number. -/
theorem buildItems_ok_iff {row : VerdictRow} {host : String} :
    (∃ items, buildItems U row host now = .ok items) ↔
      (freshState row now ≠ "unknown" → ∀ x, row.risk = some x → ∃ q, x = .finite q) := by
  have hbind : (∃ items, buildItems U row host now = .ok items) ↔
      ∃ numbers, knownNumbers row host (freshState row now) = .ok numbers := by
    unfold buildItems
    constructor
    · rintro ⟨items, h⟩
      obtain ⟨numbers, hnumbers, -⟩ := bind_eq_ok.mp h
      exact ⟨numbers, hnumbers⟩
    · rintro ⟨numbers, hnumbers⟩
      exact ⟨_, bind_eq_ok.mpr ⟨numbers, hnumbers, rfl⟩⟩
  rw [hbind, knownNumbers]
  by_cases hstate : freshState row now = "unknown"
  · rw [if_pos hstate]
    exact iff_of_true ⟨[], rfl⟩ fun h => absurd hstate h
  · rw [if_neg hstate]
    unfold numericItems
    cases hrisk : row.risk with
    | none => exact iff_of_true ⟨_, rfl⟩ fun _ x hx => by cases hx
    | some x =>
      cases x with
      | finite q => exact iff_of_true ⟨_, rfl⟩ fun _ x hx => ⟨q, (Option.some.inj hx).symm⟩
      | nan | posInf | negInf =>
        refine iff_of_false ?_ fun h => ?_
        · rintro ⟨numbers, h⟩
          cases h
        · obtain ⟨q, hq⟩ := h hstate _ rfl
          cases hq

end Items

/-! ### The packet -/

/-- What the parts of a packet are to the rows and the configuration it is made of. -/
structure Partitions (U : UnicodeData) (rows : List VerdictRow) (cfg : ZabbixConfig)
    (now : Instant) (packet : Packet) : Prop where
  /-- the exported and the skipped machines are the selected ones -/
  devices : (packet.hosts.map (·.2) ++ packet.skipped.map (·.deviceId)).Perm
    ((selectedRows rows cfg).map (·.device))
  once : ∀ r ∈ selectedRows rows cfg,
    (packet.hosts.map (·.2)).count r.device + (packet.skipped.map (·.deviceId)).count r.device = 1
  names : (packet.hosts.map (·.1)).Nodup
  named : ∀ h ∈ packet.hosts, ∃ r ∈ selectedRows rows cfg,
    r.device = h.2 ∧ resolveHost U r cfg = some h.1
  owned : ∀ i ∈ packet.items, ∃ h ∈ packet.hosts, i.host = h.1
  state : ∀ h ∈ packet.hosts, ∀ r ∈ rows, r.device = h.2 →
    (packet.items.filter fun i => i.host = h.1 ∧ i.key = "srp.state") =
      [⟨h.1, "srp.state", fmtText (freshState r now)⟩]
  numbers : ∀ h ∈ packet.hosts, ∀ r ∈ rows, r.device = h.2 → ∀ i ∈ packet.items, i.host = h.1 →
    i.key = "srp.risk" ∨ i.key = "srp.days_left" → freshState r now ≠ "unknown"

section Packet

variable {U : UnicodeData} {rows : List VerdictRow} {cfg : ZabbixConfig} {now : Instant}
  {backoff : List String} {packet : Packet}

theorem admitHost_subset {host : String} {group : List (String × VerdictRow)}
    (hgroup : ∀ e ∈ group, e.1 = host) : ∀ e ∈ (admitHost backoff host group).1, e ∈ group := by
  unfold admitHost
  split
  · rename_i host' row
    have hhost : host' = host := hgroup (host', row) List.mem_cons_self
    split_ifs
    · exact fun e he => by cases he
    · rw [hhost]
      exact fun e he => he
  · exact fun e he => by cases he

/-- An exported machine is selected, and its name is what its row resolves to. -/
theorem mem_exported {e : String × VerdictRow} (he : e ∈ exported U rows cfg backoff) :
    e.2 ∈ selectedRows rows cfg ∧ resolveHost U e.2 cfg = some e.1 := by
  obtain ⟨x, hx, hex⟩ := List.mem_flatMap.mp he
  obtain ⟨host, -, rfl⟩ := List.mem_map.mp hx
  have hmem := (mem_group.mp (admitHost_subset group_host e hex)).1
  obtain ⟨r, hr, hnamed⟩ := List.mem_filterMap.mp hmem
  obtain ⟨host', hhost', rfl⟩ := Option.map_eq_some_iff.mp hnamed
  exact ⟨hr, hhost'⟩

/-- A machine of the packet with its row. -/
theorem exported_of_host (hdistinct : (rows.map (·.device)).Nodup)
    (h : buildPacket U rows cfg now backoff = .ok packet) {host : String × String}
    (hhost : host ∈ packet.hosts) {r : VerdictRow} (hr : r ∈ rows) (hdevice : r.device = host.2) :
    (host.1, r) ∈ exported U rows cfg backoff := by
  rw [(buildPacket_spec h).1] at hhost
  obtain ⟨e, he, rfl⟩ := List.mem_map.mp hhost
  have hrow : e.2 ∈ rows := (List.mem_filter.mp (mem_exported he).1).1
  obtain rfl : r = e.2 := List.inj_on_of_nodup_map hdistinct hr hrow hdevice
  exact he

theorem partitions_of_ok (hdistinct : (rows.map (·.device)).Nodup)
    (h : buildPacket U rows cfg now backoff = .ok packet) : Partitions U rows cfg now packet where
  devices := packet_devices h
  once r hr := by
    have hselected : ((selectedRows rows cfg).map (·.device)).Nodup :=
      hdistinct.sublist (List.filter_sublist.map _)
    rw [← List.count_append, (packet_devices h).count_eq]
    exact List.count_eq_one_of_mem hselected (List.mem_map_of_mem hr)
  names := by
    rw [hosts_eq h]
    exact exported_nodup
  named host hhost := by
    rw [(buildPacket_spec h).1] at hhost
    obtain ⟨e, he, rfl⟩ := List.mem_map.mp hhost
    exact ⟨e.2, (mem_exported he).1, rfl, (mem_exported he).2⟩
  owned i hi := by
    obtain ⟨e, he, built, hbuilt, hmem⟩ := ((buildPacket_spec h).2 i).mp hi
    refine ⟨(e.1, e.2.device), ?_, (buildItems_spec hbuilt hmem).1⟩
    rw [(buildPacket_spec h).1]
    exact List.mem_map.mpr ⟨e, he, rfl⟩
  state host hhost r hr hdevice := by
    have hbuilt := items_of_host h (exported_of_host hdistinct h hhost hr hdevice)
    have hstate := (buildItems_state hbuilt).1
    rw [List.filter_filter] at hstate
    rw [← hstate]
    refine List.filter_congr fun i _ => ?_
    rw [Bool.decide_and, Bool.and_comm]
  numbers host hhost r hr hdevice i hi hown hkey := by
    have hbuilt := items_of_host h (exported_of_host hdistinct h hhost hr hdevice)
    exact (buildItems_state hbuilt).2 i (List.mem_filter.mpr ⟨hi, by simpa using hown⟩) hkey

/-- A packet is built unless the risk of an exported machine whose state is known is no number. -/
theorem buildPacket_ok_iff :
    (∃ packet, buildPacket U rows cfg now backoff = .ok packet) ↔
      ∀ e ∈ exported U rows cfg backoff, freshState e.2 now ≠ "unknown" →
        ∀ x, e.2.risk = some x → ∃ q, x = .finite q := by
  have hmapM : (∃ packet, buildPacket U rows cfg now backoff = .ok packet) ↔
      ∃ built, ((exported U rows cfg backoff).mapM fun e => buildItems U e.2 e.1 now) =
        .ok built := by
    unfold buildPacket
    constructor
    · rintro ⟨packet, h⟩
      obtain ⟨built, hbuilt, -⟩ := bind_eq_ok.mp h
      exact ⟨built, hbuilt⟩
    · rintro ⟨built, hbuilt⟩
      exact ⟨_, bind_eq_ok.mpr ⟨built, hbuilt, rfl⟩⟩
  rw [hmapM, mapM_ok_iff]
  exact forall₂_congr fun e _ => buildItems_ok_iff

end Packet

/-- A packet of rows with distinct devices parts them as it should; and there is one, unless the
risk of an exported machine whose state is known is infinite or no number. -/
theorem buildPacket_partitions (U : UnicodeData) (rows : List VerdictRow)
    (hdistinct : (rows.map (·.device)).Nodup) (cfg : ZabbixConfig) (now : Instant)
    (backoff : List String) :
    (∀ packet, buildPacket U rows cfg now backoff = .ok packet →
      Partitions U rows cfg now packet) ∧
    ((∃ packet, buildPacket U rows cfg now backoff = .ok packet) ↔
      ∀ e ∈ exported U rows cfg backoff, freshState e.2 now ≠ "unknown" →
        ∀ x, e.2.risk = some x → ∃ q, x = .finite q) :=
  ⟨fun _ => partitions_of_ok hdistinct, buildPacket_ok_iff⟩

/-- Two machines whose names differ only in an unprintable character, and a third one. -/
private def namesakes : List VerdictRow :=
  [⟨some "d1", some "PC-1", none, none, none, none, some "h2", some (.finite 40), some 12, none,
     none⟩,
   ⟨some "d2", some "PC-\u00071", none, none, none, none, some "h0", none, none, none, none⟩,
   ⟨some "d3", some "PC-3", none, none, none, none, some "h1", some (.finite 5), none, none, none⟩]

private def byHostname : ZabbixConfig := ⟨"zabbix", .hostname, "", "", [], []⟩

private theorem namesakes_finite : ∀ r ∈ namesakes, ∀ x, r.risk = some x → ∃ q, x = .finite q := by
  intro r hr x hx
  simp only [namesakes, List.mem_cons, List.not_mem_nil, or_false] at hr
  rcases hr with rfl | rfl | rfl
  · exact ⟨40, (Option.some.inj hx).symm⟩
  · cases hx
  · exact ⟨5, (Option.some.inj hx).symm⟩

private theorem epoch_inCalendar : 0 < 3652059 * usPerDay := by decide

private def epoch : Instant := ⟨0, epoch_inCalendar⟩

theorem buildPacket_partitions_namesakes :
    ∃ packet, buildPacket .ascii namesakes byHostname epoch [] = .ok packet ∧
      Partitions .ascii namesakes byHostname epoch packet := by
  have hpacket := buildPacket_partitions .ascii namesakes (by decide) byHostname epoch []
  obtain ⟨packet, h⟩ := hpacket.2.mpr fun e he _ x hx =>
    namesakes_finite e.2 (List.mem_filter.mp (mem_exported he).1).1 x hx
  exact ⟨packet, h, hpacket.1 packet h⟩

end Srp.Zabbix
