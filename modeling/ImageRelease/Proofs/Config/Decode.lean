import ImageRelease.Config.Decode
import ImageRelease.Proofs.Except
import ImageRelease.Proofs.Toml.Document

/-! Configurations from tables. The entries of a table are taken in the order of their keys, but entries with distinct
keys give the same configuration in any order. So a table is known by its texts and by its limits.
-/
namespace ImageRelease

open Toml (Entries Node Key Item Tabulates)

/-! ### The order of entries -/

section

variable {ε α γ : Type} {step : γ → α → Except ε γ} {apart : α → α → Prop}

/-- Steps that may change places succeed in any order, and with the same result. -/
theorem foldlM_ok_of_perm (symm : ∀ {a b}, apart a b → apart b a)
    (swap : ∀ a b c after d, apart a b → step c a = .ok after → step after b = .ok d →
      ∃ other, step c b = .ok other ∧ step other a = .ok d)
    {xs ys : List α} (perm : xs.Perm ys) (distinct : xs.Pairwise apart) {c d : γ} (done : xs.foldlM step c = .ok d) :
    ys.foldlM step c = .ok d := by
  induction perm generalizing c with
  | nil => exact done
  | cons x perm ih =>
    rw [List.foldlM_cons, except_bind_ok] at done ⊢
    obtain ⟨after, first, rest⟩ := done
    exact ⟨after, first, ih (List.pairwise_cons.mp distinct).2 rest⟩
  | swap x y rest =>
    simp only [List.foldlM_cons, except_bind_ok] at done ⊢
    obtain ⟨after, first, last, second, rest⟩ := done
    have different : apart y x := (List.pairwise_cons.mp distinct).1 x List.mem_cons_self
    obtain ⟨other, second, first⟩ := swap y x c after last different first second
    exact ⟨other, second, last, first, rest⟩
  | trans first second ihFirst ihSecond => exact ihSecond (first.pairwise distinct symm) (ihFirst distinct done)

end

namespace TextField

theorem key_injective {f g : TextField} (same : f.key = g.key) : f = g := by
  rw [← Option.some_inj, ← ofKey?_key, ← ofKey?_key, same]

theorem key_ne_limitsKey (f : TextField) : f.key ≠ Config.limitsKey := by
  cases f <;> decide

end TextField

theorem LimitField.key_injective {f g : LimitField} (same : f.key = g.key) : f = g := by
  rw [← Option.some_inj, ← ofKey?_key, ← ofKey?_key, same]

theorem Limits.set_comm {f g : LimitField} (apart : f ≠ g) (limits : Limits) (n m : Nat) :
    (limits.set f n).set g m = (limits.set g m).set f n := by
  cases f <;> cases g <;> first | contradiction | rfl

namespace Config

variable {config after : Config} {limits : Limits} {entries rows : Entries} {entry a b : Key × Node} {n : Nat}

theorem set_comm {f g : TextField} (apart : f ≠ g) (s t : String) :
    (config.set f s).set g t = (config.set g t).set f s := by
  cases f <;> cases g <;> first | contradiction | rfl

theorem set_limits (f : TextField) (s : String) :
    { config.set f s with limits } = { config with limits }.set f s := by
  cases f <;> rfl

theorem setLimit_ok_iff {after : Limits} :
    setLimit limits entry = .ok after ↔
      ∃ f n, entry.1.name = f.key ∧ decodeSeconds entry.2 = .ok n ∧ after = limits.set f n := by
  unfold setLimit
  constructor
  · intro set
    split at set
    · next f found =>
      cases decoded : decodeSeconds entry.2 with
      | error fault => simp [decoded, Except.map] at set
      | ok n =>
        rw [decoded] at set
        exact ⟨f, n, (LimitField.key_of_ofKey? found).symm, rfl, (Except.ok.inj set).symm⟩
    · contradiction
  · rintro ⟨f, n, named, decoded, rfl⟩
    rw [named, LimitField.ofKey?_key, decoded]
    rfl

theorem setEntry_ok_iff :
    setEntry config entry = .ok after ↔
      (∃ f s, entry.1.name = f.key ∧ decodeText (expectedOf f) entry.2 = .ok s ∧ after = config.set f s) ∨
        entry.1.name = limitsKey ∧ ∃ limits, decodeLimits entry.2 = .ok limits ∧ after = { config with limits } := by
  unfold setEntry
  constructor
  · intro set
    split at set
    · next f found =>
      cases decoded : decodeText (expectedOf f) entry.2 with
      | error fault => simp [decoded, Except.map] at set
      | ok s =>
        rw [decoded] at set
        exact .inl ⟨f, s, (TextField.key_of_ofKey? found).symm, decoded, (Except.ok.inj set).symm⟩
    · split at set
      · next named =>
        cases decoded : decodeLimits entry.2 with
        | error fault => simp [decoded, Except.map] at set
        | ok limits =>
          rw [decoded] at set
          exact .inr ⟨named, limits, rfl, (Except.ok.inj set).symm⟩
      · contradiction
  · rintro (⟨f, s, named, decoded, rfl⟩ | ⟨named, limits, decoded, rfl⟩)
    · simp only [named, TextField.ofKey?_key, decoded]
      rfl
    · have other : TextField.ofKey? limitsKey = none := by decide
      rw [named, other, decoded]
      rfl

theorem setLimit_swap {first last : Limits} (apart : a.1.name ≠ b.1.name) (setFirst : setLimit limits a = .ok first)
    (setLast : setLimit first b = .ok last) : ∃ other, setLimit limits b = .ok other ∧ setLimit other a = .ok last := by
  obtain ⟨f, n, named, decoded, rfl⟩ := setLimit_ok_iff.mp setFirst
  obtain ⟨g, m, alsoNamed, alsoDecoded, rfl⟩ := setLimit_ok_iff.mp setLast
  have fields : f ≠ g := by
    rintro rfl
    exact apart (named.trans alsoNamed.symm)
  exact ⟨limits.set g m, setLimit_ok_iff.mpr ⟨g, m, alsoNamed, alsoDecoded, rfl⟩,
    setLimit_ok_iff.mpr ⟨f, n, named, decoded, Limits.set_comm fields limits n m⟩⟩

theorem setEntry_swap {first last : Config} (apart : a.1.name ≠ b.1.name) (setFirst : setEntry config a = .ok first)
    (setLast : setEntry first b = .ok last) : ∃ other, setEntry config b = .ok other ∧ setEntry other a = .ok last := by
  rcases setEntry_ok_iff.mp setFirst with ⟨f, s, named, decoded, rfl⟩ | ⟨named, limits, decoded, rfl⟩
  · rcases setEntry_ok_iff.mp setLast with ⟨g, t, alsoNamed, alsoDecoded, rfl⟩ | ⟨alsoNamed, limits, alsoDecoded, rfl⟩
    · have fields : f ≠ g := by
        rintro rfl
        exact apart (named.trans alsoNamed.symm)
      exact ⟨config.set g t, setEntry_ok_iff.mpr (.inl ⟨g, t, alsoNamed, alsoDecoded, rfl⟩),
        setEntry_ok_iff.mpr (.inl ⟨f, s, named, decoded, set_comm fields s t⟩)⟩
    · exact ⟨{ config with limits }, setEntry_ok_iff.mpr (.inr ⟨alsoNamed, limits, alsoDecoded, rfl⟩),
        setEntry_ok_iff.mpr (.inl ⟨f, s, named, decoded, set_limits f s⟩)⟩
  · rcases setEntry_ok_iff.mp setLast with ⟨g, t, alsoNamed, alsoDecoded, rfl⟩ | ⟨alsoNamed, others, alsoDecoded, rfl⟩
    · exact ⟨config.set g t, setEntry_ok_iff.mpr (.inl ⟨g, t, alsoNamed, alsoDecoded, rfl⟩),
        setEntry_ok_iff.mpr (.inr ⟨named, limits, decoded, (set_limits g t).symm⟩)⟩
    · exact absurd (named.trans alsoNamed.symm) apart

theorem foldlM_byKey {γ : Type} {step : γ → Key × Node → Except TableFault γ}
    (swap : ∀ a b c after d, a.1.name ≠ b.1.name → step c a = .ok after → step after b = .ok d →
      ∃ other, step c b = .ok other ∧ step other a = .ok d)
    (perm : entries.Perm rows) (distinct : rows.names.Nodup) {c d : γ} (done : rows.foldlM step c = .ok d) :
    (byKey entries).foldlM step c = .ok d := by
  have sorted : rows.Perm (byKey entries) := perm.symm.trans (List.mergeSort_perm entries _).symm
  rw [Entries.names, List.Nodup, List.pairwise_map] at distinct
  exact foldlM_ok_of_perm Ne.symm swap sorted distinct done

/-! ### Texts and limits -/

def textItem (text : TextField × String) : Item := ⟨text.1.key, .text text.2⟩

def limitItem (limit : LimitField × Nat) : Item := ⟨limit.1.key, .number limit.2⟩

def setTexts (config : Config) (texts : List (TextField × String)) : Config :=
  texts.foldl (fun config text => config.set text.1 text.2) config

def setSeconds (limits : Limits) (given : List (LimitField × Nat)) : Limits :=
  given.foldl (fun limits limit => limits.set limit.1 limit.2) limits

def filled (texts : List (TextField × String)) (given : List (LimitField × Nat)) : Config :=
  { setTexts default texts with limits := setSeconds Limits.default given }

variable {texts : List (TextField × String)} {given : List (LimitField × Nat)}

theorem limits_setTexts (config : Config) (texts : List (TextField × String)) :
    (setTexts config texts).limits = config.limits := by
  induction texts generalizing config with
  | nil => rfl
  | cons text texts ih => exact (ih _).trans (limits_set config text.1 text.2)

theorem foldlM_setEntry (held : List.Forall₂ Item.HeldBy (texts.map textItem) rows) (config : Config) :
    rows.foldlM setEntry config = .ok (setTexts config texts) := by
  induction texts generalizing rows config with
  | nil =>
    obtain rfl := List.forall₂_nil_left_iff.mp held
    rfl
  | cons text texts ih =>
    obtain ⟨⟨key, node⟩, rows, ⟨named, holds⟩, later, rfl⟩ := List.forall₂_cons_left_iff.mp held
    have decoded : decodeText (expectedOf text.1) node = .ok text.2 := by
      cases holds
      rfl
    have set : setEntry config (key, node) = .ok (config.set text.1 text.2) :=
      setEntry_ok_iff.mpr (.inl ⟨text.1, text.2, named, decoded, rfl⟩)
    rw [List.foldlM_cons, set]
    exact ih later _

theorem foundOf?_integer {value : Int} {width : Width} {numeral : Toml.Numeral} (span : Toml.Span)
    (valued : Toml.Number.integerValue? numeral = some value) (fits : widthOf? value = some width) :
    foundOf? (.integer span numeral) = some (.integer value width) := by
  simp [foundOf?, valued, fits]

theorem widthOf?_of_lt (bounded : n < Nat.pow 2 64) : widthOf? n = some .standard := by
  have negative : -widthBound 63 ≤ 0 := by decide
  have low : -widthBound 63 ≤ n := by omega
  have high : n < widthBound 64 := Int.ofNat_lt.mpr bounded
  exact if_pos ⟨low, high⟩

theorem decodeSeconds_number {node : Node} (held : Toml.Scalar.HeldBy (.number n) node) (bounded : n < Nat.pow 2 64) :
    decodeSeconds node = .ok n := by
  cases held with
  | number n span =>
    have value := Toml.Number.integerValue?_of_numeral (Toml.numeral_toDigits n)
    rw [Nat.ofDigitChars_ten_toDigits] at value
    rw [decodeSeconds, foundOf?_integer span value (widthOf?_of_lt bounded)]
    exact if_pos (Int.natCast_nonneg n)

theorem foldlM_setLimit (held : List.Forall₂ Item.HeldBy (given.map limitItem) rows)
    (bounded : ∀ limit ∈ given, limit.2 < Nat.pow 2 64) (limits : Limits) :
    rows.foldlM setLimit limits = .ok (setSeconds limits given) := by
  induction given generalizing rows limits with
  | nil =>
    obtain rfl := List.forall₂_nil_left_iff.mp held
    rfl
  | cons limit given ih =>
    obtain ⟨entry, rows, ⟨named, holds⟩, later, rfl⟩ := List.forall₂_cons_left_iff.mp held
    obtain ⟨small, others⟩ := List.forall_mem_cons.mp bounded
    have set : setLimit limits entry = .ok (limits.set limit.1 limit.2) :=
      setLimit_ok_iff.mpr ⟨limit.1, limit.2, named, decodeSeconds_number holds small, rfl⟩
    rw [List.foldlM_cons, set]
    exact ih later others _

theorem limitsKey_not_mem (texts : List (TextField × String)) : limitsKey ∉ (texts.map textItem).map Item.name := by
  rw [List.map_map]
  intro member
  obtain ⟨text, -, same⟩ := List.mem_map.mp member
  exact text.1.key_ne_limitsKey same

/-- The configuration in a table with a text for each of these fields, and a number for each of these limits. -/
theorem ofEntries_of_tabulates (tabulates : Tabulates limitsKey (texts.map textItem) (given.map limitItem) entries)
    (bounded : ∀ limit ∈ given, limit.2 < Nat.pow 2 64) (textsDistinct : ((texts.map textItem).map Item.name).Nodup)
    (limitsDistinct : ((given.map limitItem).map Item.name).Nodup) :
    ofEntries entries = .ok (filled texts given) := by
  cases tabulates with
  | flat empty held perm =>
    obtain rfl := List.map_eq_nil_iff.mp empty
    rw [← Toml.names_of_held held] at textsDistinct
    have decoded := foldlM_byKey (fun _ _ _ _ _ => setEntry_swap) perm textsDistinct (foldlM_setEntry held default)
    have kept : (setTexts default texts).limits = Limits.default := limits_setTexts default texts
    rw [ofEntries, decoded, filled, setSeconds, List.foldl_nil, ← kept]
  | @nested rows inside key span origin named held heldInside perm =>
    rw [← Toml.names_of_held heldInside] at limitsDistinct
    have inner : decodeLimits (.table span origin inside) = .ok (setSeconds Limits.default given) :=
      foldlM_byKey (fun _ _ _ _ _ => setLimit_swap) (.refl inside) limitsDistinct (foldlM_setLimit heldInside bounded _)
    have last : setEntry (setTexts default texts) (key, .table span origin inside) = .ok (filled texts given) :=
      setEntry_ok_iff.mpr (.inr ⟨named, _, inner, rfl⟩)
    have done : (rows ++ [(key, .table span origin inside)] : Entries).foldlM setEntry default =
        .ok (filled texts given) := by
      rw [List.foldlM_append, foldlM_setEntry held default, except_bind_ok]
      refine ⟨_, rfl, ?_⟩
      rw [List.foldlM_cons, last]
      rfl
    have distinct : (rows ++ [(key, .table span origin inside)] : Entries).names.Nodup := by
      rw [Entries.names_append, Entries.names_cons, named, Toml.names_of_held held, List.nodup_append]
      refine ⟨textsDistinct, List.pairwise_singleton _ _, fun name member other only => ?_⟩
      obtain rfl := List.mem_singleton.mp only
      rintro rfl
      exact limitsKey_not_mem texts member
    exact foldlM_byKey (fun _ _ _ _ _ => setEntry_swap) perm distinct done

end Config

end ImageRelease
