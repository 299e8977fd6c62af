import ImageRelease.Proofs.Config.Decode

/-! What a table holds that is decoded: each of its entries is a text or a number where one is expected, and is the
value of the configuration.
-/
namespace ImageRelease

open Toml (Entries Node Key Origin Span)

namespace Config

def Holds (node : Node) (n : Nat) : Prop :=
  ∃ span numeral, node = .integer span numeral ∧ Toml.Number.integerValue? numeral = some (n : Int) ∧ n < Nat.pow 2 64

variable {config : Config} {limits : Limits} {entries sub : Entries} {entry : Key × Node} {node : Node} {n : Nat}

/-! ### Decoded values -/

theorem decodeText_ok {expected : Expected} {s : String} (decoded : decodeText expected node = .ok s) :
    ∃ span, node = .text span s := by
  cases node with
  | text span value =>
    obtain rfl := Except.ok.inj decoded
    exact ⟨span, rfl⟩
  | _ => contradiction

theorem foundOf?_eq_integer {m : Int} {width : Width} (found : foundOf? node = some (.integer m width)) :
    ∃ span numeral, node = .integer span numeral ∧ Toml.Number.integerValue? numeral = some m ∧
      widthOf? m = some width := by
  cases node with
  | integer span numeral =>
    obtain ⟨value, valued, found⟩ := Option.bind_eq_some_iff.mp found
    obtain ⟨wide, fits, same⟩ := Option.bind_eq_some_iff.mp found
    obtain ⟨rfl, rfl⟩ := Found.integer.inj (Option.some.inj same)
    exact ⟨span, numeral, rfl, valued, fits⟩
  | float span value =>
    obtain ⟨shown, -, same⟩ := Option.map_eq_some_iff.mp found
    contradiction
  | _ => simp [foundOf?] at found

theorem decodeSeconds_ok (decoded : decodeSeconds node = .ok n) : Holds node n := by
  unfold decodeSeconds at decoded
  split at decoded
  · next m found =>
    obtain ⟨span, numeral, rfl, valued, fits⟩ := foundOf?_eq_integer found
    split at decoded
    · next natural =>
      obtain rfl := Except.ok.inj decoded
      obtain ⟨k, rfl⟩ := Int.eq_ofNat_of_zero_le natural
      refine ⟨span, numeral, rfl, valued, ?_⟩
      unfold widthOf? at fits
      split at fits
      · next bounds => exact Int.ofNat_lt.mp bounds.2
      · split at fits
        · contradiction
        · split at fits <;> contradiction
    · contradiction
  · next other =>
    unfold refuse at decoded
    split at decoded <;> contradiction

/-! ### Entries -/

section

variable {β γ : Type} {step : γ → Key × Node → Except TableFault γ} {c d : γ}

theorem kept_of_foldlM (observe : γ → β)
    (keeps : ∀ entry ∈ entries, ∀ c d, step c entry = .ok d → observe d = observe c)
    (done : entries.foldlM step c = .ok d) : observe d = observe c := by
  induction entries generalizing c with
  | nil => rw [Except.ok.inj done]
  | cons entry entries ih =>
    obtain ⟨middle, first, later⟩ := except_bind_ok.mp done
    obtain ⟨keepsFirst, keepsLater⟩ := List.forall_mem_cons.mp keeps
    rw [ih keepsLater later, keepsFirst c middle first]

/-- Each entry has its step, and those behind it have other keys. -/
theorem step_of_foldlM (distinct : entries.names.Nodup) (done : (byKey entries).foldlM step c = .ok d)
    (member : entry ∈ entries) :
    ∃ (before middle : γ) (rest : Entries), step before entry = .ok middle ∧ rest.foldlM step middle = .ok d ∧
      entry.1.name ∉ rest.names := by
  have perm : (byKey entries).Perm entries := List.mergeSort_perm entries _
  have sorted : (Entries.names (byKey entries)).Nodup := (perm.map _).nodup_iff.mpr distinct
  obtain ⟨front, rest, split⟩ := List.append_of_mem (perm.mem_iff.mpr member)
  rw [split] at done sorted
  rw [List.foldlM_append, except_bind_ok] at done
  obtain ⟨before, -, done⟩ := done
  obtain ⟨middle, here, done⟩ := except_bind_ok.mp done
  rw [Entries.names_append, List.nodup_append] at sorted
  exact ⟨before, middle, rest, here, done, (List.nodup_cons.mp sorted.2.1).1⟩

end

theorem ne_name_of_not_mem {name : String} (absent : name ∉ entries.names) (member : entry ∈ entries) :
    entry.1.name ≠ name := by
  rintro rfl
  exact absent (List.mem_map_of_mem member)

theorem get_of_foldlM {f : TextField} {after : Config} (absent : f.key ∉ entries.names)
    (done : entries.foldlM setEntry config = .ok after) : after.get f = config.get f := by
  refine kept_of_foldlM (fun config => config.get f) (fun entry member c d set => ?_) done
  rcases setEntry_ok_iff.mp set with ⟨g, s, named, -, rfl⟩ | ⟨named, limits, -, rfl⟩
  · have other : f ≠ g := by
      rintro rfl
      exact ne_name_of_not_mem absent member named
    exact (get_set c g f s).trans (if_neg other)
  · cases f <;> rfl

theorem limits_of_foldlM {after : Config} (absent : limitsKey ∉ entries.names)
    (done : entries.foldlM setEntry config = .ok after) : after.limits = config.limits := by
  refine kept_of_foldlM Config.limits (fun entry member c d set => ?_) done
  rcases setEntry_ok_iff.mp set with ⟨g, s, named, -, rfl⟩ | ⟨named, limits, -, rfl⟩
  · exact limits_set c g s
  · exact absurd named (ne_name_of_not_mem absent member)

theorem get_of_foldlM_setLimit {f : LimitField} {after : Limits} (absent : f.key ∉ entries.names)
    (done : entries.foldlM setLimit limits = .ok after) : after.get f = limits.get f := by
  refine kept_of_foldlM (fun limits => limits.get f) (fun entry member c d set => ?_) done
  obtain ⟨g, m, named, -, rfl⟩ := setLimit_ok_iff.mp set
  have other : f ≠ g := by
    rintro rfl
    exact ne_name_of_not_mem absent member named
  exact (Limits.get_set c g f m).trans (if_neg other)

/-- An entry of a table that is decoded is a text of the configuration, or has its limits. -/
theorem entry_of_ofEntries (distinct : entries.names.Nodup) (decoded : ofEntries entries = .ok config)
    (member : entry ∈ entries) :
    (∃ (f : TextField) (span : Span), entry.1.name = f.key ∧ entry.2 = .text span (config.get f)) ∨
      entry.1.name = limitsKey ∧ decodeLimits entry.2 = .ok config.limits := by
  obtain ⟨before, middle, rest, set, done, absent⟩ := step_of_foldlM distinct decoded member
  rcases setEntry_ok_iff.mp set with ⟨f, s, named, text, rfl⟩ | ⟨named, limits, taken, rfl⟩
  · obtain ⟨span, same⟩ := decodeText_ok text
    have value : config.get f = s := by
      rw [get_of_foldlM (named ▸ absent) done, get_set, if_pos rfl]
    exact .inl ⟨f, span, named, value.symm ▸ same⟩
  · have value : config.limits = limits := limits_of_foldlM (named ▸ absent) done
    exact .inr ⟨named, value.symm ▸ taken⟩

theorem entry_of_decodeLimits {span : Span} {origin : Origin} (distinct : sub.names.Nodup)
    (decoded : decodeLimits (.table span origin sub) = .ok limits) (member : entry ∈ sub) :
    ∃ f : LimitField, entry.1.name = f.key ∧ Holds entry.2 (limits.get f) := by
  obtain ⟨before, middle, rest, set, done, absent⟩ := step_of_foldlM distinct decoded member
  obtain ⟨f, m, named, seconds, rfl⟩ := setLimit_ok_iff.mp set
  have value : limits.get f = m := by
    rw [get_of_foldlM_setLimit (named ▸ absent) done, Limits.get_set, if_pos rfl]
  exact ⟨f, named, value.symm ▸ decodeSeconds_ok seconds⟩

theorem item_of_setLimits {fields : List LimitField} {nodes : List Node} {after : Limits} {index : Nat}
    (decoded : setLimits fields nodes limits = .ok after) (found : nodes[index]? = some node)
    (early : index < fields.length) : ∃ n, Holds node n := by
  induction fields generalizing nodes limits index with
  | nil => exact absurd early (Nat.not_lt_zero index)
  | cons field fields ih =>
    cases nodes with
    | nil => simp at found
    | cons first nodes =>
      obtain ⟨n, seconds, later⟩ := except_bind_ok.mp decoded
      cases index with
      | zero =>
        obtain rfl := Option.some.inj found
        exact ⟨n, decodeSeconds_ok seconds⟩
      | succ index => exact ih later found (Nat.lt_of_succ_lt_succ early)

end Config

end ImageRelease
