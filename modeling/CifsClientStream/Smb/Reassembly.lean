import CifsClientStream.Lib.Tiling
import CifsClientStream.Smb.Trans2

/-!
# Reassembly of a transaction reply (src/smb/trans2/collector.rs)

The messages of a reply carry fragments of the parameters and of the data. A
collector gives its section back exactly when its fragments tile it
(`Collector.get_ok`), in whatever order they came (`collect_perm`), and the
collection of a reply is complete with its last message (`cutting_done`).
-/

namespace CifsClientStream.Smb
open Cursor Tiling

/-! ### One section -/

theorem Collector.join_ok (buffer : Bytes) (fs : List (ℕ × Bytes)) (b : Bytes) :
    Collector.join buffer fs = .ok b ↔ Contiguous buffer.length fs ∧ b = buffer ++ joined fs := by
  induction fs generalizing buffer with
  | nil => simp [Collector.join, Contiguous, eq_comm]
  | cons f fs ih =>
    obtain ⟨offset, data⟩ := f
    rw [Collector.join, joined_cons, Contiguous]
    by_cases h : buffer.length = offset
    · rw [if_neg (not_not.mpr h), ih, List.length_append, List.append_assoc]
      simp [h]
    · rw [if_pos h]
      exact ⟨fun he => (nomatch he), fun he => absurd he.1.1.symm h⟩

/-- The section is given back exactly when the fragments tile it, and then each of them is at
its place. -/
theorem Collector.get_ok {c : Collector} {total : ℕ} (htotal : c.total = some total)
    (hne : ∀ f ∈ c.fragments, f.2 ≠ []) (b : Bytes) :
    c.get = .ok b ↔ Tiles 0 total c.fragments ∧ b.length = total ∧ Holds c.fragments b := by
  have hget : c.get = .ok b ↔ Tiles 0 total c.fragments ∧ b = joined (sorted c.fragments) := by
    rw [tiles_iff_sorted hne]
    unfold Collector.get
    rw [htotal]
    dsimp only
    change (if size c.fragments ≠ total then _ else Collector.join [] (sorted c.fragments)) = _ ↔ _
    by_cases hlen : size c.fragments = total
    · rw [if_neg (not_not.mpr hlen), Collector.join_ok]
      simp [hlen]
    · rw [if_pos hlen]
      exact ⟨fun he => (nomatch he), fun he => absurd (by omega) hlen⟩
  rw [hget]
  constructor
  · rintro ⟨ht, rfl⟩
    obtain ⟨hcont, hsize⟩ := (tiles_iff_sorted hne).mp ht
    refine ⟨ht, ?_, (contiguous_holds hcont [] rfl).perm (sorted_perm _)⟩
    rw [joined_length, size_perm (sorted_perm _)]
    omega
  · rintro ⟨ht, hlen, hb⟩
    obtain ⟨hcont, hsize⟩ := (tiles_iff_sorted hne).mp ht
    refine ⟨ht, hb.unique ht ((contiguous_holds hcont [] rfl).perm (sorted_perm _)) hlen ?_⟩
    rw [joined_length, size_perm (sorted_perm _)]
    omega

/-- What a message brings for one section. -/
structure Part where
  data : Bytes
  offset : ℕ
  total : ℕ

def Part.fragment (p : Part) : List (ℕ × Bytes) := if p.data = [] then [] else [(p.offset, p.data)]

def fragments (ps : List Part) : List (ℕ × Bytes) := ps.flatMap Part.fragment

def Collector.collect (c : Collector) : List Part → Except (Fault Error) Collector
  | [] => .ok c
  | p :: ps => c.add p.data p.offset p.total >>= fun c => c.collect ps

theorem Part.fragment_size (p : Part) : size p.fragment = p.data.length := by
  unfold fragment
  split
  · rename_i h
    rw [h]
    rfl
  · simp

theorem fragments_cons (p : Part) (ps : List Part) :
    fragments (p :: ps) = p.fragment ++ fragments ps := rfl

theorem fragments_nonempty (ps : List Part) : ∀ f ∈ fragments ps, f.2 ≠ [] := by
  intro f hf
  obtain ⟨p, _, hp⟩ := List.mem_flatMap.mp hf
  unfold Part.fragment at hp
  split at hp
  · exact absurd hp List.not_mem_nil
  · rename_i hne
    rw [List.mem_singleton.mp hp]
    exact hne

theorem Collector.add_ok {c c' : Collector} {p : Part} (htotal : c.total = none ∨ c.total = some p.total) :
    c.add p.data p.offset p.total = .ok c' ↔
      (∀ f ∈ c.fragments, ∀ g ∈ p.fragment, g.1 ≠ f.1) ∧
        c' = ⟨p.fragment ++ c.fragments, some p.total⟩ := by
  have hinsert : c.add p.data p.offset p.total =
      Collector.insert { c with total := some p.total } p.data p.offset := by
    obtain ⟨fs, total⟩ := c
    unfold Collector.add
    rcases htotal with rfl | rfl
    · rfl
    · dsimp only
      rw [if_neg (not_not.mpr rfl)]
  rw [hinsert]
  unfold Collector.insert Part.fragment
  by_cases h0 : p.data = []
  · simp [h0, eq_comm]
  · by_cases hany : c.fragments.any (·.1 = p.offset) = true
    · rw [if_neg h0, if_pos hany]
      refine ⟨fun he => (nomatch he), fun he => ?_⟩
      obtain ⟨f, hf, hoff⟩ := List.any_eq_true.mp hany
      rw [if_neg h0] at he
      exact absurd (of_decide_eq_true hoff).symm (he.1 f hf _ (List.mem_singleton_self _))
    · rw [if_neg h0, if_neg hany, if_neg h0, Except.ok.injEq, eq_comm]
      have hno : ∀ f ∈ c.fragments, ∀ g ∈ [(p.offset, p.data)], g.1 ≠ f.1 := by
        intro f hf g hg he
        rw [List.mem_singleton.mp hg] at he
        exact hany (List.any_eq_true.mpr ⟨f, hf, decide_eq_true he.symm⟩)
      exact ⟨fun he => ⟨hno, he⟩, fun he => he.2⟩

theorem Collector.add_total {c c' : Collector} {p : Part}
    (h : c.add p.data p.offset p.total = .ok c') : c.total = none ∨ c.total = some p.total := by
  unfold Collector.add at h
  cases ht : c.total with
  | none => exact Or.inl rfl
  | some saved =>
    rw [ht] at h
    dsimp only at h
    split at h
    · cases h
    · rename_i hsame
      rw [not_not] at hsame
      exact Or.inr (congrArg some hsame)

def offsets (fs : List (ℕ × Bytes)) : List ℕ := fs.map Prod.fst

theorem Part.fragment_offsets (p : Part) : (offsets p.fragment).Nodup := by
  unfold fragment
  split
  · exact List.nodup_nil
  · exact List.nodup_singleton _

theorem offsets_append (fs gs : List (ℕ × Bytes)) :
    (offsets (fs ++ gs)).Nodup ↔
      (offsets fs).Nodup ∧ (offsets gs).Nodup ∧ ∀ g ∈ gs, ∀ f ∈ fs, f.1 ≠ g.1 := by
  unfold offsets
  rw [List.map_append, List.nodup_append]
  constructor
  · rintro ⟨hf, hg, hd⟩
    exact ⟨hf, hg, fun g hgm f hfm => hd _ (List.mem_map_of_mem hfm) _ (List.mem_map_of_mem hgm)⟩
  · rintro ⟨hf, hg, hd⟩
    refine ⟨hf, hg, fun a ha b hb => ?_⟩
    obtain ⟨f, hfm, rfl⟩ := List.mem_map.mp ha
    obtain ⟨g, hgm, rfl⟩ := List.mem_map.mp hb
    exact hd g hgm f hfm

/-- A collector that has been given all of `ps`. -/
structure Collected (c : Collector) (ps : List Part) (total : ℕ) (c' : Collector) : Prop where
  totals : ∀ p ∈ ps, p.total = total
  total : c'.total = some total
  fragments : c'.fragments.Perm (fragments ps ++ c.fragments)
  offsets : (offsets c'.fragments).Nodup

theorem collect_collected {c c' : Collector} {ps : List Part} {total : ℕ}
    (htotal : c.total = some total) (hd : (offsets c.fragments).Nodup)
    (h : c.collect ps = .ok c') : Collected c ps total c' := by
  induction ps generalizing c with
  | nil =>
    cases h
    exact ⟨fun p hp => absurd hp List.not_mem_nil, htotal, .refl _, hd⟩
  | cons p ps ih =>
    obtain ⟨c1, hadd, hrest⟩ := except_bind_ok.mp h
    have hsame := Collector.add_total hadd
    obtain ⟨hno, rfl⟩ := (Collector.add_ok hsame).mp hadd
    have hp : p.total = total := by
      rcases hsame with hnone | hsome
      · rw [htotal] at hnone
        cases hnone
      · rw [htotal] at hsome
        exact (Option.some.inj hsome).symm
    have hd1 : (offsets (p.fragment ++ c.fragments)).Nodup :=
      (offsets_append _ _).mpr ⟨p.fragment_offsets, hd, hno⟩
    have hc := ih (congrArg some hp) hd1 hrest
    refine ⟨List.forall_mem_cons.mpr ⟨hp, hc.totals⟩, hc.total, ?_, hc.offsets⟩
    refine hc.fragments.trans ?_
    rw [fragments_cons, List.append_assoc]
    exact (List.perm_append_comm_assoc _ _ _)

theorem collect_exists {c : Collector} {ps : List Part} {total : ℕ}
    (htotal : c.total = none ∨ c.total = some total) (ht : ∀ p ∈ ps, p.total = total)
    (hd : (offsets (fragments ps ++ c.fragments)).Nodup) : ∃ c', c.collect ps = .ok c' := by
  induction ps generalizing c with
  | nil => exact ⟨c, rfl⟩
  | cons p ps ih =>
    obtain ⟨hp, ht'⟩ := List.forall_mem_cons.mp ht
    rw [← hp] at htotal
    have hperm : (fragments (p :: ps) ++ c.fragments).Perm
        (fragments ps ++ (p.fragment ++ c.fragments)) := by
      rw [fragments_cons, List.append_assoc]
      exact List.perm_append_comm_assoc _ _ _
    have hd1 : (offsets (fragments ps ++ (p.fragment ++ c.fragments))).Nodup :=
      (hperm.map Prod.fst).nodup_iff.mp hd
    obtain ⟨_, hd2, _⟩ := (offsets_append _ _).mp hd1
    obtain ⟨_, _, hno⟩ := (offsets_append _ _).mp hd2
    have hadd : c.add p.data p.offset p.total = .ok ⟨p.fragment ++ c.fragments, some p.total⟩ :=
      (Collector.add_ok htotal).mpr ⟨hno, rfl⟩
    obtain ⟨c', hc'⟩ := ih (c := ⟨p.fragment ++ c.fragments, some p.total⟩)
      (Or.inr (congrArg some hp)) ht' hd1
    refine ⟨c', ?_⟩
    rw [Collector.collect, hadd]
    exact hc'

/-- The first part settles the total. -/
theorem collect_new {ps : List Part} {c : Collector} (hne : ps ≠ [])
    (h : Collector.new.collect ps = .ok c) :
    ∃ total, (∀ p ∈ ps, p.total = total) ∧ c.total = some total ∧
      c.fragments.Perm (fragments ps) ∧ (offsets c.fragments).Nodup := by
  obtain ⟨p, ps, rfl⟩ := List.exists_cons_of_ne_nil hne
  have hfirst : Collector.collect ⟨[], some p.total⟩ (p :: ps) = .ok c := by
    rw [← h]
    unfold Collector.collect
    have hadd : Collector.add ⟨[], some p.total⟩ p.data p.offset p.total =
        Collector.new.add p.data p.offset p.total := by
      unfold Collector.add
      dsimp only [Collector.new]
      rw [if_neg (not_not.mpr rfl)]
    rw [hadd]
  have hc := collect_collected (c := ⟨[], some p.total⟩) rfl List.nodup_nil hfirst
  have hperm := hc.fragments
  rw [List.append_nil] at hperm
  exact ⟨p.total, hc.totals, hc.total, hperm, hc.offsets⟩

theorem fragments_perm {ps qs : List Part} (h : ps.Perm qs) :
    (fragments ps).Perm (fragments qs) := h.flatMap_right _

/-- What a collector gives back does not depend on the order of arrival. -/
theorem collect_perm {ps qs : List Part} {c : Collector} (hne : ps ≠ []) (hp : ps.Perm qs)
    (h : Collector.new.collect ps = .ok c) :
    ∃ c', Collector.new.collect qs = .ok c' ∧ c'.get = c.get := by
  obtain ⟨total, htotals, htotal, hfs, hd⟩ := collect_new hne h
  have hd' : (offsets (fragments qs ++ [])).Nodup := by
    rw [List.append_nil]
    exact (((hfs.trans (fragments_perm hp)).map Prod.fst).nodup_iff).mp hd
  have hne' : qs ≠ [] := fun hnil => hne (by rw [hnil] at hp; exact hp.eq_nil)
  obtain ⟨c', hc'⟩ := collect_exists (c := Collector.new) (Or.inl rfl)
    (fun q hq => htotals q (hp.mem_iff.mpr hq)) hd'
  obtain ⟨total', htotals', htotal', hfs', _⟩ := collect_new hne' hc'
  obtain ⟨q, hq⟩ := List.exists_mem_of_ne_nil qs hne'
  have hsame : total' = total := (htotals' q hq).symm.trans (htotals q (hp.mem_iff.mpr hq))
  have hperm : c'.fragments.Perm c.fragments :=
    hfs'.trans ((fragments_perm hp.symm).trans hfs.symm)
  refine ⟨c', hc', ?_⟩
  have hsorted : sorted c.fragments = sorted c'.fragments := sorted_unique hperm.symm hd
  have hsize : c'.len = c.len := size_perm hperm
  unfold Collector.get
  rw [htotal, htotal', hsame]
  dsimp only
  rw [hsize]
  change (if _ then _ else Collector.join [] (sorted c'.fragments)) = _
  rw [← hsorted]
  rfl

/-! ### Both sections -/

def Reply.Transact2.parameterPart (m : Reply.Transact2) : Part :=
  ⟨m.parameter, m.parameterOffset, m.parameterTotal⟩

def Reply.Transact2.dataPart (m : Reply.Transact2) : Part := ⟨m.data, m.dataOffset, m.dataTotal⟩

/-- Adds the messages one after the other, with what `add` says of each. -/
def CollectTrans2.addAll (c : CollectTrans2) :
    List Reply.Transact2 → Except (Fault Error) (List Bool × CollectTrans2)
  | [] => .ok ([], c)
  | m :: ms => c.add m >>= fun r => r.2.addAll ms >>= fun rest => .ok (r.1 :: rest.1, rest.2)

theorem CollectTrans2.add_ok {c c' : CollectTrans2} {m : Reply.Transact2} {done : Bool} :
    c.add m = .ok (done, c') ↔
      c.parameter.add m.parameter m.parameterOffset m.parameterTotal = .ok c'.parameter ∧
        c.data.add m.data m.dataOffset m.dataTotal = .ok c'.data ∧
        done = (c'.parameter.isReady && c'.data.isReady) := by
  unfold CollectTrans2.add
  simp only [except_bind_ok]
  constructor
  · rintro ⟨cp, hp, cd, hd, h⟩
    cases h
    exact ⟨hp, hd, rfl⟩
  · rintro ⟨hp, hd, rfl⟩
    exact ⟨c'.parameter, hp, c'.data, hd, rfl⟩

theorem addAll_collect {c c' : CollectTrans2} {ms : List Reply.Transact2} {dones : List Bool}
    (h : c.addAll ms = .ok (dones, c')) :
    c.parameter.collect (ms.map Reply.Transact2.parameterPart) = .ok c'.parameter ∧
      c.data.collect (ms.map Reply.Transact2.dataPart) = .ok c'.data := by
  induction ms generalizing c dones with
  | nil =>
    cases h
    exact ⟨rfl, rfl⟩
  | cons m ms ih =>
    obtain ⟨⟨done, c1⟩, hadd, h⟩ := except_bind_ok.mp h
    obtain ⟨⟨dones', c2⟩, hrest, h⟩ := except_bind_ok.mp h
    cases h
    obtain ⟨hp, hd, _⟩ := CollectTrans2.add_ok.mp hadd
    obtain ⟨hps, hds⟩ := ih hrest
    exact ⟨except_bind_ok.mpr ⟨c1.parameter, hp, hps⟩, except_bind_ok.mpr ⟨c1.data, hd, hds⟩⟩

theorem addAll_exists {c : CollectTrans2} {cp cd : Collector} {ms : List Reply.Transact2}
    (hp : c.parameter.collect (ms.map Reply.Transact2.parameterPart) = .ok cp)
    (hd : c.data.collect (ms.map Reply.Transact2.dataPart) = .ok cd) :
    ∃ dones, c.addAll ms = .ok (dones, ⟨cp, cd⟩) := by
  induction ms generalizing c with
  | nil =>
    obtain ⟨cp0, cd0⟩ := c
    cases hp
    cases hd
    exact ⟨[], rfl⟩
  | cons m ms ih =>
    obtain ⟨cp1, hp1, hps⟩ := except_bind_ok.mp hp
    obtain ⟨cd1, hd1, hds⟩ := except_bind_ok.mp hd
    obtain ⟨dones, hrest⟩ := ih (c := ⟨cp1, cd1⟩) hps hds
    have hadd : c.add m = .ok (cp1.isReady && cd1.isReady, ⟨cp1, cd1⟩) :=
      CollectTrans2.add_ok.mpr ⟨hp1, hd1, rfl⟩
    exact ⟨(cp1.isReady && cd1.isReady) :: dones, except_bind_ok.mpr
      ⟨_, hadd, except_bind_ok.mpr ⟨(dones, ⟨cp, cd⟩), hrest, rfl⟩⟩⟩

/-- What `add` says of each message, when `p` and `d` bytes are there and `tp` and `td` are
expected. -/
def readiness (tp td : ℕ) : ℕ → ℕ → List Reply.Transact2 → List Bool
  | _, _, [] => []
  | p, d, m :: ms =>
    (decide (tp ≤ p + m.parameter.length) && decide (td ≤ d + m.data.length)) ::
      readiness tp td (p + m.parameter.length) (d + m.data.length) ms

theorem Collector.add_len {c c' : Collector} {p : Part}
    (h : c.add p.data p.offset p.total = .ok c') :
    c'.len = c.len + p.data.length ∧ c'.isReady = decide (p.total ≤ c.len + p.data.length) := by
  obtain ⟨_, rfl⟩ := (Collector.add_ok (Collector.add_total h)).mp h
  have hlen : Collector.len ⟨p.fragment ++ c.fragments, some p.total⟩ =
      c.len + p.data.length := by
    change size (p.fragment ++ c.fragments) = size c.fragments + _
    rw [size_append, p.fragment_size, Nat.add_comm]
  refine ⟨hlen, ?_⟩
  unfold Collector.isReady
  dsimp only
  rw [hlen]

theorem addAll_readiness {c c' : CollectTrans2} {ms : List Reply.Transact2} {dones : List Bool}
    {tp td : ℕ} (ht : ∀ m ∈ ms, m.parameterTotal = tp ∧ m.dataTotal = td)
    (h : c.addAll ms = .ok (dones, c')) :
    dones = readiness tp td c.parameter.len c.data.len ms := by
  induction ms generalizing c dones with
  | nil =>
    cases h
    rfl
  | cons m ms ih =>
    obtain ⟨⟨done, c1⟩, hadd, h⟩ := except_bind_ok.mp h
    obtain ⟨⟨dones', c2⟩, hrest, h⟩ := except_bind_ok.mp h
    cases h
    obtain ⟨hp, hd, hdone⟩ := CollectTrans2.add_ok.mp hadd
    obtain ⟨⟨hmp, hmd⟩, ht'⟩ := List.forall_mem_cons.mp ht
    obtain ⟨hplen, hpready⟩ := Collector.add_len (p := m.parameterPart) hp
    obtain ⟨hdlen, hdready⟩ := Collector.add_len (p := m.dataPart) hd
    have htail := ih ht' hrest
    rw [hplen, hdlen] at htail
    dsimp only at hdone ⊢
    rw [hdone, hpready, hdready, htail, readiness]
    change (decide (m.parameterTotal ≤ _) && decide (m.dataTotal ≤ _)) :: _ = _
    rw [hmp, hmd]
    rfl

/-- Only the last of the messages makes the reply complete. -/
theorem readiness_last {tp td p d : ℕ} {ms : List Reply.Transact2} (hne : ms ≠ [])
    (hp : p + (ms.map (·.parameter.length)).sum = tp) (hd : d + (ms.map (·.data.length)).sum = td)
    (hcarry : ∀ m ∈ ms.tail, 0 < m.parameter.length + m.data.length) :
    readiness tp td p d ms = List.replicate (ms.length - 1) false ++ [true] := by
  induction ms generalizing p d with
  | nil => exact absurd rfl hne
  | cons m ms ih =>
    rw [List.map_cons, List.sum_cons] at hp hd
    rw [readiness]
    cases ms with
    | nil =>
      rw [List.map_nil, List.sum_nil] at hp hd
      have h1 : tp ≤ p + m.parameter.length := by omega
      have h2 : td ≤ d + m.data.length := by omega
      simp [readiness, h1, h2]
    | cons m' ms =>
      have hm' := hcarry m' List.mem_cons_self
      rw [ih (by simp) (by omega) (by omega) fun x hx => hcarry x (List.mem_cons_of_mem m' hx)]
      rw [List.map_cons, List.sum_cons] at hp hd
      have hnot : ¬(tp ≤ p + m.parameter.length ∧ td ≤ d + m.data.length) := by omega
      have hfalse : (decide (tp ≤ p + m.parameter.length) && decide (td ≤ d + m.data.length)) =
          false := by
        rw [Bool.and_eq_false_iff, decide_eq_false_iff_not, decide_eq_false_iff_not]
        exact not_and_or.mp hnot
      rw [hfalse]
      rfl

/-! ### Whole replies -/

def parameterFragments (ms : List Reply.Transact2) : List (ℕ × Bytes) :=
  fragments (ms.map Reply.Transact2.parameterPart)

def dataFragments (ms : List Reply.Transact2) : List (ℕ × Bytes) :=
  fragments (ms.map Reply.Transact2.dataPart)

/-- The messages cut the parameters `P` and the data `D`. -/
structure Cutting (P D : Bytes) (ms : List Reply.Transact2) : Prop where
  totals : ∀ m ∈ ms, m.parameterTotal = P.length ∧ m.dataTotal = D.length
  parameter : Tiles 0 P.length (parameterFragments ms)
  parameter_holds : Holds (parameterFragments ms) P
  data : Tiles 0 D.length (dataFragments ms)
  data_holds : Holds (dataFragments ms) D

theorem fragments_size (ps : List Part) : size (fragments ps) = (ps.map (·.data.length)).sum := by
  induction ps with
  | nil => rfl
  | cons p ps ih =>
    rw [fragments_cons, size_append, p.fragment_size, ih, List.map_cons, List.sum_cons]

theorem collect_get {ps : List Part} {c : Collector} (hne : ps ≠ [])
    (h : Collector.new.collect ps = .ok c) {total : ℕ} (ht : ∀ p ∈ ps, p.total = total) (b : Bytes) :
    c.get = .ok b ↔ Tiles 0 total (fragments ps) ∧ b.length = total ∧ Holds (fragments ps) b := by
  obtain ⟨total', htotals, htotal, hfs, _⟩ := collect_new hne h
  obtain ⟨p, hp⟩ := List.exists_mem_of_ne_nil ps hne
  have hsame : total' = total := (htotals p hp).symm.trans (ht p hp)
  subst hsame
  rw [Collector.get_ok htotal fun f hf => fragments_nonempty ps f (hfs.mem_iff.mp hf)]
  constructor
  · rintro ⟨htiles, hlen, hb⟩
    exact ⟨htiles.perm hfs, hlen, hb.perm hfs⟩
  · rintro ⟨htiles, hlen, hb⟩
    exact ⟨htiles.perm hfs.symm, hlen, hb.perm hfs.symm⟩

theorem tiles_holds {ps : List Part} {total : ℕ} (h : Tiles 0 total (fragments ps)) :
    ∃ b : Bytes, b.length = total ∧ Holds (fragments ps) b := by
  obtain ⟨hcont, hsize⟩ := (tiles_iff_sorted (fragments_nonempty ps)).mp h
  refine ⟨joined (sorted (fragments ps)), ?_, (contiguous_holds hcont [] rfl).perm (sorted_perm _)⟩
  rw [joined_length, size_perm (sorted_perm _)]
  omega

/-- One section of a sequence of messages that is accepted. -/
theorem collect_exact {ps : List Part} {c : Collector} (hne : ps ≠ [])
    (h : Collector.new.collect ps = .ok c) :
    ∃ total, (∀ p ∈ ps, p.total = total) ∧
      ((∃ b, c.get = .ok b) ↔ Tiles 0 total (fragments ps)) ∧
      ∀ b, c.get = .ok b → b.length = total ∧ Holds (fragments ps) b := by
  obtain ⟨total, ht, _⟩ := collect_new hne h
  have hget := collect_get hne h ht
  refine ⟨total, ht, ?_, fun b hb => ((hget b).mp hb).2⟩
  constructor
  · intro hsome
    obtain ⟨b, hb⟩ := hsome
    exact ((hget b).mp hb).1
  · intro htiles
    obtain ⟨b, hb⟩ := tiles_holds htiles
    exact ⟨b, (hget b).mpr ⟨htiles, hb⟩⟩

/-- Fragments that tile a section are accepted, and give it back. -/
theorem collect_tiled {ps : List Part} {b : Bytes} (hne : ps ≠ [])
    (ht : ∀ p ∈ ps, p.total = b.length) (htiles : Tiles 0 b.length (fragments ps))
    (hb : Holds (fragments ps) b) : ∃ c, Collector.new.collect ps = .ok c ∧ c.get = .ok b := by
  have hnil : Collector.new.fragments = [] := rfl
  have hnodup : (offsets (fragments ps ++ Collector.new.fragments)).Nodup := by
    rw [hnil, List.append_nil]
    exact htiles.nodup (fragments_nonempty ps)
  obtain ⟨c, hc⟩ := collect_exists (Or.inl (rfl : Collector.new.total = none)) ht hnodup
  exact ⟨c, hc, (collect_get hne hc ht b).mpr ⟨htiles, rfl, hb⟩⟩

theorem parts_sum {ps : List Part} {total : ℕ} (h : Tiles 0 total (fragments ps)) :
    (ps.map (·.data.length)).sum = total := by
  have hsize := ((tiles_iff_sorted (fragments_nonempty ps)).mp h).2
  rw [fragments_size, Nat.zero_add] at hsize
  exact hsize.symm

/-- The messages that a reply was cut into give it back, with the last of them and with no
earlier one. -/
theorem cutting_done {P D : Bytes} {ms : List Reply.Transact2} (hne : ms ≠ [])
    (hcut : Cutting P D ms)
    (hcarry : (∀ m ∈ ms, m.parameter ≠ [] ∨ m.data ≠ []) ∨ (ms.length = 1 ∧ P = [] ∧ D = [])) :
    ∃ ctx, CollectTrans2.new.addAll ms = .ok (List.replicate (ms.length - 1) false ++ [true], ctx) ∧
      ctx.parameter.get = .ok P ∧ ctx.data.get = .ok D := by
  have hnep : ms.map Reply.Transact2.parameterPart ≠ [] := fun h => hne (List.map_eq_nil_iff.mp h)
  have hned : ms.map Reply.Transact2.dataPart ≠ [] := fun h => hne (List.map_eq_nil_iff.mp h)
  have htp : ∀ p ∈ ms.map Reply.Transact2.parameterPart, p.total = P.length :=
    List.forall_mem_map.mpr fun m hm => (hcut.totals m hm).1
  have htd : ∀ p ∈ ms.map Reply.Transact2.dataPart, p.total = D.length :=
    List.forall_mem_map.mpr fun m hm => (hcut.totals m hm).2
  obtain ⟨cp, hp, hgetp⟩ := collect_tiled hnep htp hcut.parameter hcut.parameter_holds
  obtain ⟨cd, hd, hgetd⟩ := collect_tiled hned htd hcut.data hcut.data_holds
  obtain ⟨dones, h⟩ := addAll_exists (c := CollectTrans2.new) hp hd
  have hsump := parts_sum hcut.parameter
  have hsumd := parts_sum hcut.data
  rw [List.map_map] at hsump hsumd
  have hbytes : ∀ m ∈ ms.tail, 0 < m.parameter.length + m.data.length := by
    intro m hm
    rcases hcarry with hall | ⟨hone, _⟩
    · rcases hall m (List.mem_of_mem_tail hm) with h0 | h0
      · have := List.length_pos_of_ne_nil h0
        omega
      · have := List.length_pos_of_ne_nil h0
        omega
    · have hnil : ms.tail = [] := by
        rw [← List.length_eq_zero_iff, List.length_tail]
        omega
      rw [hnil] at hm
      exact absurd hm List.not_mem_nil
  have hdones : dones = List.replicate (ms.length - 1) false ++ [true] :=
    (addAll_readiness hcut.totals h).trans (readiness_last hne ((Nat.zero_add _).trans hsump)
      ((Nat.zero_add _).trans hsumd) hbytes)
  subst hdones
  exact ⟨⟨cp, cd⟩, h, hgetp, hgetd⟩

/-- A section is given back exactly when its fragments tile it, and then each of them is at
its place; the order of arrival does not matter; and the messages that a reply was cut into
give it back, with the last of them and with no earlier one. -/
theorem reassembly_exact (ms : List Reply.Transact2) (hne : ms ≠ []) :
    (∀ dones ctx, CollectTrans2.new.addAll ms = .ok (dones, ctx) →
      (∃ tp td, (∀ m ∈ ms, m.parameterTotal = tp ∧ m.dataTotal = td) ∧
        ((∃ b, ctx.parameter.get = .ok b) ↔ Tiles 0 tp (parameterFragments ms)) ∧
        (∀ b, ctx.parameter.get = .ok b → b.length = tp ∧ Holds (parameterFragments ms) b) ∧
        ((∃ b, ctx.data.get = .ok b) ↔ Tiles 0 td (dataFragments ms)) ∧
        ∀ b, ctx.data.get = .ok b → b.length = td ∧ Holds (dataFragments ms) b) ∧
      ∀ ms', ms.Perm ms' → ∃ dones' ctx', CollectTrans2.new.addAll ms' = .ok (dones', ctx') ∧
        ctx'.parameter.get = ctx.parameter.get ∧ ctx'.data.get = ctx.data.get) ∧
    ∀ P D, Cutting P D ms →
      ((∀ m ∈ ms, m.parameter ≠ [] ∨ m.data ≠ []) ∨ (ms.length = 1 ∧ P = [] ∧ D = [])) →
      ∃ ctx, CollectTrans2.new.addAll ms = .ok (List.replicate (ms.length - 1) false ++ [true], ctx) ∧
        ctx.parameter.get = .ok P ∧ ctx.data.get = .ok D := by
  have hnep : ms.map Reply.Transact2.parameterPart ≠ [] := fun h => hne (List.map_eq_nil_iff.mp h)
  have hned : ms.map Reply.Transact2.dataPart ≠ [] := fun h => hne (List.map_eq_nil_iff.mp h)
  refine ⟨fun dones ctx h => ⟨?_, fun ms' hperm => ?_⟩, fun P D hcut hcarry => ?_⟩
  · obtain ⟨hp, hd⟩ := addAll_collect h
    obtain ⟨tp, htp, htilesp, hgetp⟩ := collect_exact hnep hp
    obtain ⟨td, htd, htilesd, hgetd⟩ := collect_exact hned hd
    exact ⟨tp, td, fun m hm => ⟨htp _ (List.mem_map_of_mem hm), htd _ (List.mem_map_of_mem hm)⟩,
      htilesp, hgetp, htilesd, hgetd⟩
  · obtain ⟨hp, hd⟩ := addAll_collect h
    obtain ⟨cp, hcp, hgetp⟩ := collect_perm hnep (hperm.map _) hp
    obtain ⟨cd, hcd, hgetd⟩ := collect_perm hned (hperm.map _) hd
    obtain ⟨dones', h'⟩ := addAll_exists (c := CollectTrans2.new) hcp hcd
    exact ⟨dones', ⟨cp, cd⟩, h', hgetp, hgetd⟩
  · exact cutting_done hne hcut hcarry

/-- A reply of three bytes of parameters in two messages, the second of which comes first. -/
theorem reassembly_exact_two :
    ∃ ctx, CollectTrans2.new.addAll [⟨[3], 3, 2, [], 0, 0⟩, ⟨[1, 2], 3, 0, [], 0, 0⟩] =
        .ok ([false, true], ctx) ∧
      ctx.parameter.get = .ok [1, 2, 3] ∧ ctx.data.get = .ok [] := by
  have hfs : parameterFragments [⟨[3], 3, 2, [], 0, 0⟩, ⟨[1, 2], 3, 0, [], 0, 0⟩] =
      [(2, [3]), (0, [1, 2])] := rfl
  have hds : dataFragments [⟨[3], 3, 2, [], 0, 0⟩, ⟨[1, 2], 3, 0, [], 0, 0⟩] = [] := rfl
  have hcut : Cutting [1, 2, 3] [] [⟨[3], 3, 2, [], 0, 0⟩, ⟨[1, 2], 3, 0, [], 0, 0⟩] := by
    refine ⟨by decide, ?_, ?_, ?_, ?_⟩
    · rw [hfs]
      have hcont : Contiguous 0 [(0, [1, 2]), (2, ([3] : Bytes))] := ⟨rfl, rfl, trivial⟩
      exact (contiguous_tiles hcont).perm (.swap _ _ _)
    · rw [hfs]
      unfold Holds
      decide
    · rw [hds]
      have hcont : Contiguous 0 ([] : List (ℕ × Bytes)) := trivial
      exact contiguous_tiles hcont
    · rw [hds]
      exact fun f hf => absurd hf List.not_mem_nil
  exact (reassembly_exact [⟨[3], 3, 2, [], 0, 0⟩, ⟨[1, 2], 3, 0, [], 0, 0⟩] (by decide)).2 [1, 2, 3]
    [] hcut (Or.inl (by decide))

end CifsClientStream.Smb
