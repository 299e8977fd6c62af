import ImageRelease.FileTree

/-! Reading and writing texts in a file tree, said by location. A file that is written over keeps every
path where it was, so paths can be resolved once and for all before files are edited.
-/
namespace ImageRelease

theorem Text.decode?_eq_some_iff {bytes : ByteArray} {text : String} :
    decode? bytes = some text ↔ bytes = text.toUTF8 := by
  constructor
  · intro decoded
    simp only [decode?, String.fromUTF8?] at decoded
    split at decoded
    · obtain rfl := Option.some.inj decoded
      rfl
    · contradiction
  · rintro rfl
    exact decode?_toUTF8 text

namespace FileTree

variable {t u : FileTree} {l k : Location} {path : String}

@[simp] theorem lookup_root (t : FileTree) : t.lookup [] = some .directory := rfl

theorem ne_root_of_file {content : ByteArray} (present : t.lookup l = some (.file content)) :
    l ≠ [] := by
  rintro rfl
  simp at present

theorem find_ok_iff {entry : FileEntry} :
    t.find path = .ok entry ↔ ∃ l, t.resolve path = .ok l ∧ t.lookup l = some entry := by
  simp only [find, bind, Except.bind]
  cases t.resolve path with
  | error fault => simp
  | ok l => cases present : t.lookup l <;> simp [present, throw, throwThe, MonadExceptOf.throw, pure, Except.pure]

theorem readText_ok_iff {text : String} :
    t.readText path = .ok text ↔
      ∃ l, t.resolve path = .ok l ∧ t.lookup l = some (.file text.toUTF8) := by
  rw [← find_ok_iff]
  simp only [readText, read, bind, Except.bind]
  rcases t.find path with fault | (_ | content)
  · simp
  · simp [throw, throwThe, MonadExceptOf.throw]
  · cases decoded : Text.decode? content with
    | none =>
      have undecoded : content ≠ text.toUTF8 := by
        rintro rfl
        rw [Text.decode?_toUTF8] at decoded
        contradiction
      simpa [decoded, throw, throwThe, MonadExceptOf.throw, pure, Except.pure] using undecoded
    | some found =>
      have same : content = text.toUTF8 ↔ found = text := by
        rw [← Text.decode?_eq_some_iff, decoded, Option.some.injEq]
      simp only [decoded, pure, Except.pure, Except.ok.injEq, FileEntry.file.injEq, same]

theorem readText_notFound_iff : t.readText path = .error .notFound ↔ t.find path = .error .notFound := by
  simp only [readText, read, bind, Except.bind]
  rcases t.find path with fault | (_ | content)
  · simp
  · simp [throw, throwThe, MonadExceptOf.throw]
  · cases decoded : Text.decode? content <;>
      simp [decoded, throw, throwThe, MonadExceptOf.throw, pure, Except.pure]

/-- Reading a text depends on the entry that the path leads to and on nothing else. -/
theorem readText_congr (resolved : u.resolve path = t.resolve path)
    (same : ∀ l, t.resolve path = .ok l → u.lookup l = t.lookup l) : u.readText path = t.readText path := by
  simp only [readText, read, find, resolved]
  cases there : t.resolve path with
  | error fault => rfl
  | ok l => simp only [bind, Except.bind, same l there]

theorem putEntry_present {e : FileEntry} {es : List (Location × FileEntry)}
    (present : es.lookup l = some e) : putEntry l e es = es := by
  induction es with
  | nil => simp at present
  | cons head rest ih =>
    obtain ⟨m, old⟩ := head
    by_cases same : m = l
    · subst same
      simp only [List.lookup_cons, beq_self_eq_true, Option.some.injEq] at present
      simp [putEntry, present]
    · have other : (l == m) = false := by simpa using Ne.symm same
      simp only [List.lookup_cons, other] at present
      simp [putEntry, same, ih present]

theorem put_present {content : ByteArray} (present : t.lookup l = some (.file content)) :
    t.put l (.file content) = t := by
  have inner := ne_root_of_file present
  have stored : t.entries.lookup l = some (.file content) := by
    simpa [lookup, List.isEmpty_iff, inner] using present
  simp [put, putEntry_present stored]

theorem putEntry_putEntry (l : Location) (e f : FileEntry) (es : List (Location × FileEntry)) :
    putEntry l f (putEntry l e es) = putEntry l f es := by
  induction es with
  | nil => simp [putEntry]
  | cons head rest ih =>
    obtain ⟨m, old⟩ := head
    by_cases same : m = l <;> simp [putEntry, same, ih]

theorem put_put (t : FileTree) (l : Location) (e f : FileEntry) : (t.put l e).put l f = t.put l f := by
  simp [put, putEntry_putEntry]

theorem walk_put {old new : ByteArray} (present : t.lookup l = some (.file old)) (parts : List String) :
    (t.put l (.file new)).walk k parts = t.walk k parts := by
  induction parts generalizing k with
  | nil => rfl
  | cons part parts ih =>
    simp only [walk, lookup_put t (ne_root_of_file present), ih]
    by_cases same : k = l
    · simp [same, present]
    · simp [same]

theorem resolve_put {old new : ByteArray} (present : t.lookup l = some (.file old)) (path : String) :
    (t.put l (.file new)).resolve path = t.resolve path := by
  simp only [resolve, walk_put present]
  rfl

theorem writeText_file {content : ByteArray} {text : String} (found : t.resolve path = .ok l)
    (present : t.lookup l = some (.file content)) :
    t.writeText path text =
      if l ∈ t.locked then .error .notPermitted else .ok (t.put l (.file text.toUTF8)) := by
  simp [writeText, write, found, present, bind, Except.bind, pure, Except.pure, throw, throwThe,
    MonadExceptOf.throw]

theorem readText_of_writeText {old new : String} (read : t.readText path = .ok old)
    (written : t.writeText path new = .ok u) : u.readText path = .ok new := by
  obtain ⟨l, found, present⟩ := readText_ok_iff.mp read
  rw [writeText_file found present] at written
  split at written
  · contradiction
  · obtain rfl := Except.ok.inj written
    refine readText_ok_iff.mpr ⟨l, ?_, ?_⟩
    · rw [resolve_put present, found]
    · rw [lookup_put _ (ne_root_of_file present), if_pos rfl]

/-- The file at a path is readable as text, and writable. -/
def Editable (t : FileTree) (path : String) : Prop :=
  (∃ text, t.readText path = .ok text) ∧ ∀ text, ∃ after, t.writeText path text = .ok after

theorem editable_iff :
    t.Editable path ↔
      ∃ (l : Location) (text : String), t.resolve path = .ok l ∧
        t.lookup l = some (.file text.toUTF8) ∧ l ∉ t.locked := by
  constructor
  · rintro ⟨⟨text, read⟩, written⟩
    obtain ⟨l, found, present⟩ := readText_ok_iff.mp read
    refine ⟨l, text, found, present, fun locked => ?_⟩
    obtain ⟨after, done⟩ := written ""
    rw [writeText_file found present, if_pos locked] at done
    contradiction
  · rintro ⟨l, text, found, present, writable⟩
    refine ⟨⟨text, readText_ok_iff.mpr ⟨l, found, present⟩⟩, fun other => ?_⟩
    rw [writeText_file found present, if_neg writable]
    exact ⟨_, rfl⟩

end FileTree

end ImageRelease
