import ImageRelease.Request

/-! What a request for images selects. A selection lists binaries in the order of their names and no one
twice, so the names of the images are different too. It is known from the set of the words alone: only which one of
several unknown words is reported depends on their order.
-/
namespace ImageRelease

namespace Binary

theorem name_injective {b c : Binary} (same : b.name = c.name) : b = c :=
  Option.some.inj (by rw [← ofName?_name b, ← ofName?_name c, same])

theorem pairwise_all : all.Pairwise fun b c => b.name < c.name := by decide +kernel

/-- A word of a request that selects something. -/
def Known (word : String) : Prop := word = everyWord ∨ word ∈ names

/-- The words of a request ask for a binary. -/
def Wanted (words : List String) (b : Binary) : Prop := words = [] ∨ everyWord ∈ words ∨ b.name ∈ words

instance (words : List String) (b : Binary) : Decidable (Wanted words b) :=
  inferInstanceAs (Decidable (_ ∨ _))

theorem ofName?_eq_some_iff {word : String} {b : Binary} : ofName? word = some b ↔ b.name = word := by
  constructor
  · exact name_of_ofName?
  · rintro rfl
    exact ofName?_name b

theorem isSome_ofWord?_iff {word : String} : (ofWord? word).isSome = true ↔ Known word := by
  have named : word ∈ names ↔ ∃ b, ofName? word = some b := by
    simp only [names, List.mem_map, mem_all, true_and, ofName?_eq_some_iff]
  rw [Known, named, ofWord?]
  split
  · next every => simp [every]
  · next particular => simp [particular, Option.isSome_iff_exists]

theorem mem_of_ofWord? {word : String} {chosen : List Binary} (known : ofWord? word = some chosen) (b : Binary) :
    b ∈ chosen ↔ word = everyWord ∨ word = b.name := by
  have particular : b.name ≠ everyWord := by cases b <;> decide
  unfold ofWord? at known
  split at known
  · next every =>
    obtain rfl := Option.some.inj known
    simp [every]
  · next other =>
    obtain ⟨c, named, rfl⟩ := Option.map_eq_some_iff.mp known
    obtain rfl := name_of_ofName? named
    have same : b = c ↔ c.name = b.name := ⟨fun same => by rw [same], fun same => (name_injective same).symm⟩
    simp [other, same]

/-- The words are read up to the first one that is unknown. -/
theorem ofWords_cases (words : List String) :
    (∃ front word back, words = front ++ word :: back ∧ (∀ w ∈ front, Known w) ∧ ¬Known word ∧
      ofWords words = .error word) ∨
    ∃ chosen, (∀ w ∈ words, Known w) ∧ ofWords words = .ok chosen ∧
      ∀ b, b ∈ chosen ↔ everyWord ∈ words ∨ b.name ∈ words := by
  induction words with
  | nil => exact .inr ⟨[], by simp, rfl, by simp⟩
  | cons first words ih =>
    rw [ofWords]
    have readable : (ofWord? first).isSome = true ↔ Known first := isSome_ofWord?_iff
    cases read : ofWord? first with
    | none =>
      rw [read] at readable
      exact .inl ⟨[], first, words, rfl, by simp, by simpa using readable, rfl⟩
    | some here =>
      have known : Known first := readable.mp (by rw [read]; rfl)
      rcases ih with ⟨front, word, back, rfl, before, unknown, failed⟩ | ⟨there, later, chosen, members⟩
      · exact .inl ⟨first :: front, word, back, rfl, List.forall_mem_cons.mpr ⟨known, before⟩, unknown,
          by rw [failed]; rfl⟩
      · refine .inr ⟨here ++ there, List.forall_mem_cons.mpr ⟨known, later⟩, by rw [chosen]; rfl, fun b => ?_⟩
        rw [List.mem_append, mem_of_ofWord? read, members, List.mem_cons, List.mem_cons, eq_comm (a := first),
          eq_comm (a := first)]
        exact or_or_or_comm

theorem select_cases (words : List String) :
    (∃ front word back, words = front ++ word :: back ∧ (∀ w ∈ front, Known w) ∧ ¬Known word ∧
      select words = .error word) ∨
    (∀ w ∈ words, Known w) ∧ select words = .ok (all.filter fun b => Wanted words b) := by
  rcases ofWords_cases words with ⟨front, word, back, split, before, unknown, failed⟩ | ⟨chosen, known, read, members⟩
  · exact .inl ⟨front, word, back, split, before, unknown, by rw [select, failed]; rfl⟩
  refine .inr ⟨known, ?_⟩
  rw [select, read]
  apply congrArg Except.ok
  cases words with
  | nil =>
    have nothing : chosen = [] := List.eq_nil_iff_forall_not_mem.mpr fun b => by simp [members]
    rw [nothing]
    exact (List.filter_eq_self.mpr fun b _ => decide_eq_true (.inl rfl)).symm
  | cons word words =>
    have something : chosen ≠ [] := by
      rcases known word List.mem_cons_self with rfl | named
      · exact List.ne_nil_of_mem ((members .speakerLocal).mpr (.inl List.mem_cons_self))
      · obtain ⟨b, -, rfl⟩ := List.mem_map.mp named
        exact List.ne_nil_of_mem ((members b).mpr (.inr List.mem_cons_self))
    have partial_ : chosen.isEmpty = false := by simpa using something
    simp only [partial_, Bool.false_eq_true, if_false]
    apply List.filter_congr
    intro b _
    simp [Wanted, members]

theorem select_name (b : Binary) : select [b.name] = .ok [b] := by
  cases b <;> rfl

end Binary

namespace ImageRequest

variable {request : ImageRequest} {bs : List Binary}

theorem selection_cases (request : ImageRequest) :
    (∃ front word back, request.binaries = front ++ word :: back ∧ (∀ w ∈ front, Binary.Known w) ∧
      ¬Binary.Known word ∧ request.selection = .error (.unknownBinary word Binary.names)) ∨
    (∀ w ∈ request.binaries, Binary.Known w) ∧
      request.selection = .ok (Binary.all.filter fun b => Binary.Wanted request.binaries b) := by
  rcases Binary.select_cases request.binaries with ⟨front, word, back, split, before, unknown, failed⟩ | ⟨known, chosen⟩
  · exact .inl ⟨front, word, back, split, before, unknown, by rw [selection, failed]; rfl⟩
  · exact .inr ⟨known, by rw [selection, chosen]; rfl⟩

theorem selection_error_iff (request : ImageRequest) :
    (∃ failure, request.selection = .error failure) ↔ ∃ word ∈ request.binaries, ¬Binary.Known word := by
  rcases selection_cases request with ⟨front, word, back, split, -, unknown, failed⟩ | ⟨known, chosen⟩
  · have member : word ∈ request.binaries := by simp [split]
    exact iff_of_true ⟨_, failed⟩ ⟨word, member, unknown⟩
  · refine iff_of_false ?_ ?_
    · rintro ⟨failure, failed⟩
      exact nomatch chosen.symm.trans failed
    · rintro ⟨word, member, unknown⟩
      exact unknown (known word member)

theorem selection_ok (selected : request.selection = .ok bs) :
    (∀ w ∈ request.binaries, Binary.Known w) ∧ bs = Binary.all.filter fun b => Binary.Wanted request.binaries b := by
  rcases selection_cases request with ⟨_, word, _, -, -, -, failed⟩ | ⟨known, chosen⟩
  · exact nomatch failed.symm.trans selected
  · exact ⟨known, Except.ok.inj (selected.symm.trans chosen)⟩

theorem selection_sublist (selected : request.selection = .ok bs) : bs.Sublist Binary.all := by
  rw [(selection_ok selected).2]
  exact List.filter_sublist

theorem selection_pairwise (selected : request.selection = .ok bs) :
    bs.Pairwise fun b c => b.name < c.name :=
  Binary.pairwise_all.sublist (selection_sublist selected)

theorem selection_nodup (selected : request.selection = .ok bs) : bs.Nodup :=
  (by decide : Binary.all.Nodup).sublist (selection_sublist selected)

def only (request : ImageRequest) (b : Binary) : ImageRequest := { request with binaries := [b.name] }

theorem selection_only (request : ImageRequest) (b : Binary) : (request.only b).selection = .ok [b] := by
  rw [selection, only, Binary.select_name]
  rfl

theorem imageName_text_injective {b c : Binary}
    (same : (request.imageName b).text = (request.imageName c).text) : b = c := by
  have same := congrArg String.toList same
  simp only [Docker.ImageName.text, imageName, String.toList_append, List.append_assoc,
    List.append_cancel_left_eq] at same
  simp only [← List.append_assoc, List.append_cancel_right_eq] at same
  exact Binary.name_injective (String.toList_inj.mp same)

theorem selection_congr {other : ImageRequest} (same : ∀ word, word ∈ other.binaries ↔ word ∈ request.binaries)
    (selected : request.selection = .ok bs) : other.selection = .ok bs := by
  obtain ⟨known, rfl⟩ := selection_ok selected
  rcases selection_cases other with ⟨front, word, back, split, -, unknown, -⟩ | ⟨-, chosen⟩
  · have member : word ∈ other.binaries := by simp [split]
    exact absurd (known word ((same word).mp member)) unknown
  · have wanted (b : Binary) : Binary.Wanted other.binaries b ↔ Binary.Wanted request.binaries b := by
      have empty : other.binaries = [] ↔ request.binaries = [] := by
        simp only [List.eq_nil_iff_forall_not_mem, same]
      simp only [Binary.Wanted, empty, same]
    rw [chosen]
    simp only [wanted]

/-- A request fails if and only if it has an unknown word, and then with the first one and the known names in order,
whatever else it asks for. Otherwise each binary is selected that is asked for, in the order of the names. So a request
with the same words, in any order and any number, selects the same. -/
theorem selection_reference (request : ImageRequest) :
    ((∃ failure, request.selection = .error failure) ↔
        ∃ word ∈ request.binaries, ¬(word = "all" ∨ ∃ b : Binary, b.name = word)) ∧
      (∀ failure, request.selection = .error failure → ∃ front word back,
        request.binaries = front ++ word :: back ∧ (∀ w ∈ front, w = "all" ∨ ∃ b : Binary, b.name = w) ∧
          ¬(word = "all" ∨ ∃ b : Binary, b.name = word) ∧
          failure = .unknownBinary word ["controller-acnodal", "controller-pool", "speaker-acnodal", "speaker-local"]) ∧
      (∀ bs, request.selection = .ok bs → bs.Pairwise (fun b c => b.name < c.name) ∧
        ∀ b, b ∈ bs ↔ request.binaries = [] ∨ "all" ∈ request.binaries ∨ b.name ∈ request.binaries) ∧
      ∀ other : ImageRequest, (∀ word, word ∈ other.binaries ↔ word ∈ request.binaries) →
        ∀ bs, other.selection = .ok bs ↔ request.selection = .ok bs := by
  have known (word : String) : (word = "all" ∨ ∃ b : Binary, b.name = word) ↔ Binary.Known word := by
    simp [Binary.Known, Binary.everyWord, Binary.names]
  simp only [known]
  refine ⟨selection_error_iff request, ?_, ?_, ?_⟩
  · intro failure failed
    rcases selection_cases request with ⟨front, word, back, split, before, unknown, reported⟩ | ⟨-, chosen⟩
    · exact ⟨front, word, back, split, before, unknown, Except.error.inj (failed.symm.trans reported)⟩
    · exact nomatch chosen.symm.trans failed
  · intro bs selected
    refine ⟨selection_pairwise selected, fun b => ?_⟩
    rw [(selection_ok selected).2, List.mem_filter, decide_eq_true_eq]
    exact and_iff_right (Binary.mem_all b)
  · intro other same bs
    exact ⟨selection_congr fun word => (same word).symm, selection_congr same⟩

def requestFor (binaries : List String) : ImageRequest :=
  { binaries, tag := "dev", dockerUser := "metallb", skipTests := false }

theorem selection_reference_shuffled :
    (requestFor ["speaker-local", "controller-pool", "speaker-local"]).selection =
        .ok [.controllerPool, .speakerLocal] ∧
      (requestFor ["controller-pool", "speaker-local"]).selection = .ok [.controllerPool, .speakerLocal] ∧
      ∃ failure, (requestFor ["all", "speaker-local", "Speaker", "web"]).selection = .error failure ∧
        failure.message = "Unknown binary Speaker\nKnown binaries: controller-acnodal, controller-pool, " ++
          "speaker-acnodal, speaker-local" := by
  have selected : (requestFor ["controller-pool", "speaker-local"]).selection = .ok [.controllerPool, .speakerLocal] :=
    rfl
  obtain ⟨-, -, -, unordered⟩ := selection_reference (requestFor ["controller-pool", "speaker-local"])
  have same : ∀ word, word ∈ (requestFor ["speaker-local", "controller-pool", "speaker-local"]).binaries ↔
      word ∈ (requestFor ["controller-pool", "speaker-local"]).binaries := by
    simp only [requestFor, List.mem_cons, List.not_mem_nil, or_false]
    intro word
    constructor
    · rintro (second | first | second)
      · exact .inr second
      · exact .inl first
      · exact .inr second
    · rintro (first | second)
      · exact .inr (.inl first)
      · exact .inl second
  refine ⟨(unordered _ same _).mpr selected, selected, ?_⟩
  obtain ⟨fails, first, -⟩ := selection_reference (requestFor ["all", "speaker-local", "Speaker", "web"])
  have unknown : ¬("web" = "all" ∨ ∃ b : Binary, b.name = "web") := by
    rintro (every | ⟨b, named⟩)
    · contradiction
    · cases b <;> contradiction
  obtain ⟨failure, failed⟩ := fails.mpr ⟨"web", by simp [requestFor], unknown⟩
  refine ⟨failure, failed, ?_⟩
  have reported : (requestFor ["all", "speaker-local", "Speaker", "web"]).selection =
      .error (.unknownBinary "Speaker" Binary.names) := rfl
  obtain rfl := Except.error.inj (failed.symm.trans reported)
  decide +kernel

end ImageRequest

end ImageRelease
