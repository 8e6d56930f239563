import CifsClientStream.Media.Entry
import CifsClientStream.Lib.Blocks
import CifsClientStream.Lib.Digits

/-!
# The key of a name (src/lib.rs)

A name is cut into its maximal runs of ASCII digits and of other characters;
its key is the list of their tokens. The tokens of numbers stand in the order
of the numbers, and the key says everything of the runs but the case of the
text.
-/

namespace CifsClientStream.Media
open Blocks Digits

/-! ### The runs of a name and their tokens -/

section

variable (toLowercase : String → String)

def runToken (run : List Char) : NaturalToken :=
  if run.all Char.isDigit then numberToken run else .Text (toLowercase (String.ofList run))

theorem runToken_digits {run : List Char} (h : ∀ c ∈ run, c.isDigit = true) :
    runToken toLowercase run = numberToken run := by
  have hall : run.all Char.isDigit = true := List.all_eq_true.mpr h
  simp only [runToken, hall, if_true]

theorem runToken_text {run : List Char} (hne : run ≠ []) (h : ∀ c ∈ run, c.isDigit = false) :
    runToken toLowercase run = .Text (toLowercase (String.ofList run)) := by
  have hall : run.all Char.isDigit = false := by
    cases run with
    | nil => exact absurd rfl hne
    | cons c run => simp only [List.all_cons, h c List.mem_cons_self, Bool.false_and]
  simp only [runToken, hall, Bool.false_eq_true, if_false]

theorem naturalTokens_nil (rounds : ℕ) : naturalTokens toLowercase rounds [] = [] := by
  cases rounds with
  | zero => rfl
  | succ rounds => rfl

theorem naturalTokens_block {rounds : ℕ} {b : Bool} {run rest : List Char} (hne : run ≠ [])
    (hrun : ∀ c ∈ run, c.isDigit = b) (hrest : ∀ c ∈ rest.head?, c.isDigit = !b) :
    naturalTokens toLowercase (rounds + 1) (run ++ rest) =
      runToken toLowercase run :: naturalTokens toLowercase rounds rest := by
  cases run with
  | nil => exact absurd rfl hne
  | cons next chars =>
    have hnext := hrun next List.mem_cons_self
    have hsplit := takeWhile_class b hrun hrest
    cases b with
    | true =>
      have hall : (next :: chars).all Char.isDigit = true := List.all_eq_true.mpr hrun
      simp only [beq_true] at hsplit
      simp only [List.cons_append, naturalTokens, runToken, hnext, hall, if_true]
      rw [← List.cons_append, hsplit.1, hsplit.2]
    | false =>
      have hall : (next :: chars).all Char.isDigit = false := by
        simp only [List.all_cons, hnext, Bool.false_and]
      simp only [beq_false] at hsplit
      simp only [List.cons_append, naturalTokens, runToken, hnext, hall, Bool.false_eq_true,
        if_false]
      rw [← List.cons_append, hsplit.1, hsplit.2]

theorem naturalTokens_cut {name : List Char} {runs : List (List Char)}
    (h : Cut Char.isDigit name runs) (rounds : ℕ) (hlen : name.length ≤ rounds) :
    naturalTokens toLowercase rounds name = runs.map (runToken toLowercase) := by
  induction h generalizing rounds with
  | nil => exact naturalTokens_nil toLowercase rounds
  | @block b run rest runs hne hrun hrest _ ih =>
    have hpos : 0 < run.length := List.length_pos_iff.mpr hne
    rw [List.length_append] at hlen
    obtain ⟨fewer, rfl⟩ : ∃ fewer, rounds = fewer + 1 := ⟨rounds - 1, by omega⟩
    rw [naturalTokens_block toLowercase hne hrun hrest, ih fewer (by omega), List.map_cons]

theorem naturalNameKey_cut {name : String} {runs : List (List Char)}
    (h : Cut Char.isDigit name.toList runs) :
    naturalNameKey toLowercase name = runs.map (runToken toLowercase) :=
  naturalTokens_cut toLowercase h _ String.length_toList.le

end

/-! ### The tokens of numbers -/

theorem numberToken_eq (raw : List Char) :
    numberToken raw =
      .Number (significant raw).length (String.ofList (significant raw)) raw.length := by
  unfold numberToken significant
  by_cases h : raw.dropWhile (· = '0') = []
  · simp only [h, if_true]
    rfl
  · have hpos := List.length_pos_iff.mpr h
    have hmax : max (raw.dropWhile (· = '0')).length 1 = (raw.dropWhile (· = '0')).length := by
      omega
    simp only [h, if_false, hmax]

theorem numberToken_lt {raw raw' : List Char} (h : ∀ c ∈ raw, c.isDigit = true)
    (h' : ∀ c ∈ raw', c.isDigit = true) (hlt : number raw < number raw') :
    (numberToken raw).cmp (numberToken raw') = .lt := by
  rw [numberToken_eq, numberToken_eq]
  simp only [NaturalToken.cmp]
  rcases Nat.lt_or_eq_of_le (significant_length_le h h' hlt) with hshorter | hsame
  · rw [Nat.compare_eq_lt.mpr hshorter]
    rfl
  · have hless : String.ofList (significant raw) < String.ofList (significant raw') := by
      rw [String.lt_iff, String.toList_ofList, String.toList_ofList]
      apply lt_of_number_lt (significant_digits h) (significant_digits h') hsame
      rw [number_significant, number_significant]
      exact hlt
    have hcmp : compare (String.ofList (significant raw)) (String.ofList (significant raw')) =
        .lt := compareOfLessAndEq_eq_lt.mpr hless
    rw [Nat.compare_eq_eq.mpr hsame, hcmp]
    rfl

/-! ### Equal keys -/

theorem numberToken_inj {raw raw' : List Char} (h : numberToken raw = numberToken raw') :
    raw = raw' := by
  rw [numberToken_eq, numberToken_eq, NaturalToken.Number.injEq] at h
  exact significant_inj h.2.2 (String.ofList_inj.mp h.2.1)

section

variable (toLowercase : String → String)

/-- The same digits, or other characters that are the same text in lowercase. -/
def SameRun (run run' : List Char) : Prop :=
  ((∀ c ∈ run, c.isDigit = true) ∧ run = run') ∨
    ((∀ c ∈ run, c.isDigit = false) ∧ (∀ c ∈ run', c.isDigit = false) ∧
      toLowercase (String.ofList run) = toLowercase (String.ofList run'))

/-- The two names are made of the same runs. -/
def SameName (a b : String) : Prop :=
  ∃ runs runs', Cut Char.isDigit a.toList runs ∧ Cut Char.isDigit b.toList runs' ∧
    List.Forall₂ (SameRun toLowercase) runs runs'

theorem not_digit_and_other {run : List Char} (hne : run ≠ []) (h : ∀ c ∈ run, c.isDigit = true) :
    ¬∀ c ∈ run, c.isDigit = false := by
  intro h'
  obtain ⟨c, hc⟩ := List.exists_mem_of_ne_nil run hne
  have hdigit := h c hc
  rw [h' c hc] at hdigit
  cases hdigit

/-- A run of one class, as the cut of a name gives them. -/
def Homogeneous (run : List Char) : Prop := run ≠ [] ∧ ∃ b, ∀ c ∈ run, c.isDigit = b

theorem sameRun_digits {run : List Char} (run' : List Char) (hne : run ≠ [])
    (h : ∀ c ∈ run, c.isDigit = true) : SameRun toLowercase run run' ↔ run = run' := by
  constructor
  · rintro (⟨-, heq⟩ | ⟨hother, -⟩)
    · exact heq
    · exact absurd hother (not_digit_and_other hne h)
  · intro heq
    exact Or.inl ⟨h, heq⟩

theorem sameRun_text {run run' : List Char} (hne : run ≠ []) (h : ∀ c ∈ run, c.isDigit = false)
    (h' : ∀ c ∈ run', c.isDigit = false) :
    SameRun toLowercase run run' ↔
      toLowercase (String.ofList run) = toLowercase (String.ofList run') := by
  constructor
  · rintro (⟨hdigits, -⟩ | ⟨-, -, heq⟩)
    · exact absurd h (not_digit_and_other hne hdigits)
    · exact heq
  · intro heq
    exact Or.inr ⟨h, h', heq⟩

theorem not_sameRun_text_digits {run run' : List Char} (hne : run ≠ []) (hne' : run' ≠ [])
    (h : ∀ c ∈ run, c.isDigit = false) (h' : ∀ c ∈ run', c.isDigit = true) :
    ¬SameRun toLowercase run run' := by
  rintro (⟨hdigits, -⟩ | ⟨-, hother, -⟩)
  · exact not_digit_and_other hne hdigits h
  · exact not_digit_and_other hne' h' hother

theorem numberToken_ne_text (raw : List Char) (text : String) : numberToken raw ≠ .Text text := by
  rw [numberToken_eq]
  intro h
  cases h

theorem runToken_eq_iff {run run' : List Char} (h : Homogeneous run) (h' : Homogeneous run') :
    runToken toLowercase run = runToken toLowercase run' ↔ SameRun toLowercase run run' := by
  obtain ⟨hne, b, hrun⟩ := h
  obtain ⟨hne', b', hrun'⟩ := h'
  cases b with
  | true =>
    rw [runToken_digits toLowercase hrun, sameRun_digits toLowercase run' hne hrun]
    cases b' with
    | true =>
      rw [runToken_digits toLowercase hrun']
      constructor
      · intro heq
        exact numberToken_inj heq
      · intro heq
        rw [heq]
    | false =>
      rw [runToken_text toLowercase hne' hrun']
      apply iff_of_false (numberToken_ne_text _ _)
      intro heq
      rw [← heq] at hrun'
      exact not_digit_and_other hne hrun hrun'
  | false =>
    rw [runToken_text toLowercase hne hrun]
    cases b' with
    | true =>
      rw [runToken_digits toLowercase hrun']
      exact iff_of_false (numberToken_ne_text _ _).symm
        (not_sameRun_text_digits toLowercase hne hne' hrun hrun')
    | false =>
      rw [runToken_text toLowercase hne' hrun', NaturalToken.Text.injEq,
        sameRun_text toLowercase hne hrun hrun']

theorem map_runToken_eq_iff {runs runs' : List (List Char)} (h : ∀ run ∈ runs, Homogeneous run)
    (h' : ∀ run ∈ runs', Homogeneous run) :
    runs.map (runToken toLowercase) = runs'.map (runToken toLowercase) ↔
      List.Forall₂ (SameRun toLowercase) runs runs' := by
  induction runs generalizing runs' with
  | nil =>
    cases runs' with
    | nil => simp
    | cons run' runs' => simp
  | cons run runs ih =>
    cases runs' with
    | nil => simp
    | cons run' runs' =>
      have hhead := runToken_eq_iff toLowercase (h run List.mem_cons_self)
        (h' run' List.mem_cons_self)
      have htail := ih (fun r hr => h r (List.mem_cons_of_mem _ hr))
        (fun r hr => h' r (List.mem_cons_of_mem _ hr))
      rw [List.map_cons, List.map_cons, List.cons.injEq, List.forall₂_cons, hhead, htail]

theorem naturalNameKey_eq_iff (a b : String) :
    naturalNameKey toLowercase a = naturalNameKey toLowercase b ↔ SameName toLowercase a b := by
  have homogeneous {name : List Char} {runs : List (List Char)} (h : Cut Char.isDigit name runs) :
      ∀ run ∈ runs, Homogeneous run := fun run hrun => ⟨h.ne_nil hrun, h.mem_class hrun⟩
  constructor
  · intro heq
    obtain ⟨runs, hruns⟩ := exists_cut (p := Char.isDigit) a.toList
    obtain ⟨runs', hruns'⟩ := exists_cut (p := Char.isDigit) b.toList
    rw [naturalNameKey_cut toLowercase hruns, naturalNameKey_cut toLowercase hruns'] at heq
    exact ⟨runs, runs', hruns, hruns',
      (map_runToken_eq_iff toLowercase (homogeneous hruns) (homogeneous hruns')).mp heq⟩
  · rintro ⟨runs, runs', hruns, hruns', hsame⟩
    rw [naturalNameKey_cut toLowercase hruns, naturalNameKey_cut toLowercase hruns']
    exact (map_runToken_eq_iff toLowercase (homogeneous hruns) (homogeneous hruns')).mpr hsame

end

end CifsClientStream.Media
