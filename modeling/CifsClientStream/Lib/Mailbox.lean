import Mathlib.Data.List.Basic
import Mathlib.Logic.Function.Basic

/-!
# Matching replies to keys

Messages arrive in one queue and are asked for by key. `receive k` returns a
message put aside earlier under `k`, or reads on, putting every message with
another key aside, until one with key `k` comes. At most one message is kept
for a key: a second one stops the reading.

`queued box k` is what the box holds under `k`, put aside or unread, in the
order in which `receive k` would give it. Putting a message aside does not
change it, and that is the invariant behind `receive_queued`: as long as no
other key has two messages, receiving `k` takes the first of `queued box k`
and leaves every other queue as it was.
-/

namespace CifsClientStream.Mailbox

variable {K M : Type*} [DecidableEq K] (key : M → K)

structure Box (K M : Type*) where
  stored : K → Option M
  unread : List M

/-- Outcome of a receive: a message, a second message for a key that has one
put aside, or nothing left to read. -/
inductive Taken (M : Type*) where
  | got (m : M)
  | duplicate (m : M)
  | starved

def put (stored : K → Option M) (m : M) : K → Option M :=
  Function.update stored (key m) (some m)

def readFor (k : K) : (K → Option M) → List M → Taken M × Box K M
  | stored, [] => (.starved, ⟨stored, []⟩)
  | stored, m :: rest =>
    if key m = k then (.got m, ⟨stored, rest⟩)
    else if (stored (key m)).isSome then (.duplicate m, ⟨put key stored m, rest⟩)
    else readFor k (put key stored m) rest

def receive (k : K) (box : Box K M) : Taken M × Box K M :=
  match box.stored k with
  | some m => (.got m, ⟨Function.update box.stored k none, box.unread⟩)
  | none => readFor key k box.stored box.unread

/-- The messages held under `k`, in the order of their delivery. -/
def queued (box : Box K M) (k : K) : List M :=
  (box.stored k).toList ++ box.unread.filter fun m => key m = k

/-! ### Taking the first message of a queue -/

theorem put_self (stored : K → Option M) (m : M) : put key stored m (key m) = some m :=
  Function.update_self ..

theorem put_of_ne (stored : K → Option M) (m : M) {k : K} (h : k ≠ key m) :
    put key stored m k = stored k :=
  Function.update_of_ne h ..

theorem queued_mk (stored : K → Option M) (unread : List M) (k : K) :
    queued key ⟨stored, unread⟩ k = (stored k).toList ++ unread.filter fun m => key m = k := rfl

theorem queued_cons_self (stored : K → Option M) (m : M) (rest : List M) :
    queued key ⟨stored, m :: rest⟩ (key m) =
      (stored (key m)).toList ++ m :: rest.filter fun x => key x = key m := by
  rw [queued_mk, List.filter_cons_of_pos (by simp)]

theorem queued_cons_ne (stored : K → Option M) (m : M) (rest : List M) {k : K} (h : key m ≠ k) :
    queued key ⟨stored, m :: rest⟩ k = queued key ⟨stored, rest⟩ k := by
  rw [queued_mk, queued_mk, List.filter_cons_of_neg (by simpa using h)]

theorem queued_stored_none (stored : K → Option M) (m : M) (rest : List M)
    (h : (queued key ⟨stored, m :: rest⟩ (key m)).length ≤ 1) : stored (key m) = none := by
  rw [queued_cons_self, List.length_append, List.length_cons] at h
  cases hs : stored (key m) with
  | none => rfl
  | some x =>
    rw [hs, Option.toList_some, List.length_singleton] at h
    omega

theorem queued_put (stored : K → Option M) (m : M) (rest : List M)
    (h : (queued key ⟨stored, m :: rest⟩ (key m)).length ≤ 1) (k : K) :
    queued key ⟨put key stored m, rest⟩ k = queued key ⟨stored, m :: rest⟩ k := by
  by_cases hk : k = key m
  · subst hk
    have hnone := queued_stored_none key stored m rest h
    rw [queued_cons_self, List.length_append, List.length_cons] at h
    have hrest : rest.filter (fun x => key x = key m) = [] := List.length_eq_zero_iff.mp (by omega)
    rw [queued_cons_self, queued_mk, put_self, hnone, hrest]
    rfl
  · rw [queued_cons_ne key stored m rest (Ne.symm hk), queued_mk, queued_mk,
      put_of_ne key stored m hk]

theorem readFor_queued (k : K) (stored : K → Option M) (unread : List M) (m : M) (ms : List M)
    (hk : stored k = none) (hq : queued key ⟨stored, unread⟩ k = m :: ms)
    (hu : ∀ k', k' ≠ k → (queued key ⟨stored, unread⟩ k').length ≤ 1) :
    ∃ box, readFor key k stored unread = (.got m, box) ∧ queued key box k = ms ∧
      (∀ k', k' ≠ k → queued key box k' = queued key ⟨stored, unread⟩ k') ∧
      box.unread <:+ unread := by
  induction unread generalizing stored with
  | nil => simp [queued, hk] at hq
  | cons x rest ih =>
    by_cases hx : key x = k
    · -- the message asked for is next
      subst hx
      rw [queued_cons_self, hk, Option.toList_none, List.nil_append, List.cons.injEq] at hq
      obtain ⟨rfl, hms⟩ := hq
      refine ⟨⟨stored, rest⟩, by simp only [readFor, if_true], ?_, ?_, List.suffix_cons _ _⟩
      · rw [queued_mk, hk, Option.toList_none, List.nil_append, hms]
      · intro k' hk'
        rw [queued_cons_ne key stored x rest (Ne.symm hk')]
    · -- a message for another key is put aside, which changes no queue
      have h1 := hu (key x) hx
      have hnone := queued_stored_none key stored x rest h1
      have hsame := queued_put key stored x rest h1
      have hk1 : put key stored x k = none := by
        rw [put_of_ne key stored x (Ne.symm hx)]
        exact hk
      obtain ⟨box, hr, hb, ho, hs⟩ := ih (put key stored x) hk1 (by rw [hsame]; exact hq)
        (fun k' hk' => by rw [hsame]; exact hu k' hk')
      refine ⟨box, ?_, hb, fun k' hk' => by rw [ho k' hk', hsame], hs.trans (List.suffix_cons _ _)⟩
      simp only [readFor, hx, if_false, hnone, Option.isSome_none, Bool.false_eq_true]
      exact hr

/-- Receiving a key takes the first message of its queue and leaves every
other queue alone, provided no other key holds two messages. -/
theorem receive_queued (k : K) (box : Box K M) (m : M) (ms : List M)
    (hq : queued key box k = m :: ms)
    (hu : ∀ k', k' ≠ k → (queued key box k').length ≤ 1) :
    ∃ box', receive key k box = (.got m, box') ∧ queued key box' k = ms ∧
      (∀ k', k' ≠ k → queued key box' k' = queued key box k') ∧
      box'.unread <:+ box.unread := by
  obtain ⟨stored, unread⟩ := box
  cases hk : stored k with
  | none =>
    obtain ⟨box', hr, h⟩ := readFor_queued key k stored unread m ms hk hq hu
    exact ⟨box', by simp only [receive, hk, hr], h⟩
  | some x =>
    simp only [queued, hk, Option.toList_some, List.singleton_append, List.cons.injEq] at hq
    obtain ⟨rfl, hms⟩ := hq
    refine ⟨⟨Function.update stored k none, unread⟩, by simp only [receive, hk], ?_, ?_,
      List.suffix_refl _⟩
    · simp only [queued, Function.update_self, Option.toList_none, List.nil_append, hms]
    · intro k' hk'
      simp only [queued, Function.update_of_ne hk']

/-! ### A key for each message -/

theorem filter_key (ms : List M) (h : (ms.map key).Nodup) (m : M) (hm : m ∈ ms) :
    ms.filter (fun x => key x = key m) = [m] := by
  induction ms with
  | nil => exact absurd hm List.not_mem_nil
  | cons x xs ih =>
    rw [List.map_cons, List.nodup_cons] at h
    rcases List.mem_cons.mp hm with rfl | hm
    · rw [List.filter_cons_of_pos (by simp), List.filter_eq_nil_iff.mpr]
      intro y hy he
      exact h.1 (of_decide_eq_true he ▸ List.mem_map_of_mem hy)
    · have hne : key x ≠ key m := fun e => h.1 (e ▸ List.mem_map_of_mem hm)
      rw [List.filter_cons_of_neg (by simpa using hne), ih h.2 hm]

/-- At most one message is filed under each key. -/
theorem filter_single (ms : List M) (h : (ms.map key).Nodup) (k : K) :
    (ms.filter fun x => key x = k).length ≤ 1 := by
  by_cases hk : ∃ m ∈ ms, key m = k
  · obtain ⟨m, hm, rfl⟩ := hk
    simp [filter_key key ms h m hm]
  · have hnone : (ms.filter fun x => key x = k) = [] := by
      simp only [List.filter_eq_nil_iff, decide_eq_true_eq]
      exact fun m hm heq => hk ⟨m, hm, heq⟩
    simp [hnone]

theorem toList_injective {a b : Option M} (h : a.toList = b.toList) : a = b := by
  cases a with
  | none =>
    cases b with
    | none => rfl
    | some y => cases h
  | some x =>
    cases b with
    | none => cases h
    | some y =>
      cases h
      rfl

theorem queued_foreign (stored : K → Option M) (unread : List M) (k : K)
    (h : k ∉ unread.map key) : queued key ⟨stored, unread⟩ k = (stored k).toList := by
  rw [queued_mk, List.filter_eq_nil_iff.mpr, List.append_nil]
  intro x hx he
  exact h (of_decide_eq_true he ▸ List.mem_map_of_mem hx)

/-- Where at most one message is unread and it has the key, that message is taken. -/
theorem receive_only {k : K} {stored : K → Option M} {unread : List M} {m : M} {box : Box K M}
    (hk : stored k = none) (hone : unread.length ≤ 1) (hkey : ∀ x ∈ unread, key x = k)
    (h : receive key k ⟨stored, unread⟩ = (.got m, box)) : m ∈ unread ∧ box = ⟨stored, []⟩ := by
  unfold receive at h
  dsimp only at h
  rw [hk] at h
  cases unread with
  | nil => cases h
  | cons x rest =>
    have hnil : rest = [] := by
      rw [List.length_cons] at hone
      exact List.length_eq_zero_iff.mp (by omega)
    subst hnil
    dsimp only at h
    rw [readFor, if_pos (hkey x List.mem_cons_self)] at h
    cases h
    exact ⟨List.mem_cons_self, rfl⟩

theorem readFor_got {k : K} {stored : K → Option M} {unread : List M} {m : M}
    (h : (readFor key k stored unread).1 = .got m) : m ∈ unread ∧ key m = k := by
  induction unread generalizing stored with
  | nil => cases h
  | cons x rest ih =>
    rw [readFor] at h
    split at h
    next hx =>
      cases h
      exact ⟨List.mem_cons_self, hx⟩
    next =>
      split at h
      · cases h
      · obtain ⟨hm, hk⟩ := ih h
        exact ⟨List.mem_cons_of_mem _ hm, hk⟩

/-- What is taken was put aside under the key, or is unread and has it. -/
theorem receive_got {k : K} {box : Box K M} {m : M} (h : (receive key k box).1 = .got m) :
    box.stored k = some m ∨ m ∈ box.unread ∧ key m = k := by
  unfold receive at h
  split at h
  next hstored =>
    cases h
    exact Or.inl hstored
  next => exact Or.inr (readFor_got key h)

/-! ### Messages under way -/

/-- What is held under a key, and what is still on its way. -/
def outstanding (box : Box K M) (transit : List M) (k : K) : List M :=
  queued key box k ++ transit.filter fun m => key m = k

/-- Messages `sent` join those under way, and some of all these arrive. -/
theorem outstanding_arrive (stored : K → Option M) (unread : List M) {transit sent arrived transit' : List M}
    (h : (transit ++ sent).Perm (arrived ++ transit')) (k : K) :
    (outstanding key ⟨stored, unread ++ arrived⟩ transit' k).Perm
      (outstanding key ⟨stored, unread⟩ transit k ++ sent.filter fun m => key m = k) := by
  have hkey := h.filter fun m => key m = k
  simp only [List.filter_append] at hkey
  simp only [outstanding, queued_mk, List.filter_append, List.append_assoc]
  exact (List.Perm.append_left _ (List.Perm.append_left _ hkey)).symm

/-- Where no key has two messages outstanding, and new ones come under keys that have none, each
of the new ones is alone under its key, held or on its way. -/
theorem outstanding_new {stored : K → Option M} {unread transit sent arrived transit' : List M}
    (h : (transit ++ sent).Perm (arrived ++ transit'))
    (hone : ∀ k, (outstanding key ⟨stored, unread⟩ transit k).length ≤ 1)
    (hfree : ∀ m ∈ sent, outstanding key ⟨stored, unread⟩ transit (key m) = [])
    (hkeys : (sent.map key).Nodup) :
    (∀ k, (outstanding key ⟨stored, unread ++ arrived⟩ transit' k).length ≤ 1) ∧
    (∀ k, outstanding key ⟨stored, unread ++ arrived⟩ transit' k ≠ [] →
      outstanding key ⟨stored, unread⟩ transit k ≠ [] ∨ k ∈ sent.map key) ∧
    ∀ m ∈ sent, queued key ⟨stored, unread ++ arrived⟩ (key m) = [m] ∨
      queued key ⟨stored, unread ++ arrived⟩ (key m) = [] ∧ m ∈ transit' := by
  have hnew {m : M} (hm : m ∈ sent) :
      outstanding key ⟨stored, unread ++ arrived⟩ transit' (key m) = [m] := by
    have hperm := outstanding_arrive key stored unread h (key m)
    rw [hfree m hm, filter_key key sent hkeys m hm, List.nil_append] at hperm
    exact List.perm_singleton.mp hperm
  have hold {k : K} (hk : k ∉ sent.map key) :
      (outstanding key ⟨stored, unread ++ arrived⟩ transit' k).Perm
        (outstanding key ⟨stored, unread⟩ transit k) := by
    have hnone : (sent.filter fun m => key m = k) = [] := by
      simp only [List.filter_eq_nil_iff, decide_eq_true_eq]
      exact fun m hm heq => hk (heq ▸ List.mem_map_of_mem hm)
    have hperm := outstanding_arrive key stored unread h k
    rw [hnone, List.append_nil] at hperm
    exact hperm
  refine ⟨fun k => ?_, fun k hsome => ?_, fun m hm => ?_⟩
  · by_cases hk : k ∈ sent.map key
    · obtain ⟨m, hm, rfl⟩ := List.mem_map.mp hk
      rw [hnew hm]
      simp
    · rw [(hold hk).length_eq]
      exact hone k
  · by_cases hk : k ∈ sent.map key
    · exact Or.inr hk
    · exact Or.inl fun hnone => hsome ((hnone ▸ hold hk).eq_nil)
  · have hall := hnew hm
    rw [outstanding] at hall
    rcases List.append_eq_singleton_iff.mp hall with ⟨hheld, hway⟩ | ⟨hheld, -⟩
    · have hmem : m ∈ transit'.filter fun x => key x = key m := by rw [hway]; simp
      exact Or.inr ⟨hheld, (List.mem_filter.mp hmem).1⟩
    · exact Or.inl hheld

theorem queued_outstanding {box : Box K M} {transit : List M} {k : K} {n : ℕ}
    (h : (outstanding key box transit k).length ≤ n) : (queued key box k).length ≤ n := by
  rw [outstanding, List.length_append] at h
  omega

end CifsClientStream.Mailbox
