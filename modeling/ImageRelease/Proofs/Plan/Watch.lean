import ImageRelease.Notice.Print
import ImageRelease.Proofs.Plan.Run

/-! Watching a run. A notice is printed when it is told, if it is shown at all; a watched run prints as it goes and
does nothing else that a run does not do. What is printed in the end is then what is printed of all notices at
once, so how much is shown decides on the printed text block by block and on nothing besides.
-/
namespace ImageRelease

variable {α σ : Type}

structure Screen where
  out : String
  err : String
deriving DecidableEq, Repr

namespace Screen

def blank : Screen := { out := "", err := "" }

def show_ (p : Palette) (v : Verbosity) (screen : Screen) (n : Notice) : Screen :=
  if v.shows n then
    if n.isError then { screen with err := screen.err ++ n.print p }
    else { screen with out := screen.out ++ n.print p }
  else screen

def of (p : Palette) (v : Verbosity) (notices : List Notice) : Screen :=
  { out := printOut p v notices, err := printErr p v notices }

variable {p : Palette} {v : Verbosity}

theorem show_of (notices : List Notice) (n : Notice) : (of p v notices).show_ p v n = of p v (notices ++ [n]) := by
  cases shown : v.shows n <;> cases failed : n.isError <;>
    simp [show_, of, printOut, printErr, List.filter_append, String.join_append, shown, failed]

theorem foldl_show_of (told notices : List Notice) :
    told.foldl (show_ p v) (of p v notices) = of p v (notices ++ told) := by
  induction told generalizing notices with
  | nil => simp
  | cons n told ih => rw [List.foldl_cons, show_of, ih, List.append_assoc, List.singleton_append]

end Screen

/-- Runs a plan and prints what is shown at the moment when it is told. -/
def Plan.watch (p : Palette) (v : Verbosity) (runner : Runner σ) :
    Plan α → Session σ → Screen → Except Failure α × Session σ × Screen
  | done result, s, screen => (result, s, screen)
  | issue c next, s, screen =>
    let a := runner c s.files s.host
    (next a.reply).watch p v runner (s.after c a) (a.notices.foldl (Screen.show_ p v) screen)
  | tell n next, s, screen => next.watch p v runner (s.told n) (screen.show_ p v n)
  | look next, s, screen => (next s.files).watch p v runner s screen
  | store files next, s, screen => next.watch p v runner { s with files } screen

/-- A watched run is a run, with all its notices printed. -/
theorem Plan.watch_eq (p : Palette) (v : Verbosity) (runner : Runner σ) (plan : Plan α) (s : Session σ) :
    plan.watch p v runner s (.of p v s.notices) =
      ((plan.run runner s).1, (plan.run runner s).2, .of p v (plan.run runner s).2.notices) := by
  induction plan generalizing s with
  | done result => rfl
  | issue c next ih =>
    rw [watch, Screen.foldl_show_of]
    exact ih _ (s.after c (runner c s.files s.host))
  | tell n next ih =>
    rw [watch, Screen.show_of]
    exact ih (s.told n)
  | look next ih => exact ih s.files s
  | store files next ih => exact ih { s with files }

/-- The printed text is made of blocks: nothing of them is seen in quiet, all of them with details asked for, and
all but the details otherwise. -/
structure ShowsBlocks (p : Palette) (blocks : List Notice) (out : Verbosity → String) : Prop where
  quiet : ∀ v : Verbosity, v.quiet = true → out v = ""
  verbose : out { verbose := true, quiet := false } = String.join (blocks.map (Notice.print p))
  plain : out { verbose := false, quiet := false } =
    String.join ((blocks.filter fun n => !n.isDetail).map (Notice.print p))

theorem showsBlocks_printOut (p : Palette) (notices : List Notice) :
    ShowsBlocks p (notices.filter fun n => !n.isError) fun v => printOut p v notices where
  quiet v quiet := by
    have hidden : (notices.filter fun n => v.shows n && !n.isError) = [] := by
      rw [List.filter_eq_nil_iff]
      intro n _
      cases failed : n.isError <;> simp [Verbosity.shows, quiet, failed]
    simp [printOut, hidden]
  verbose := by
    have all (n : Notice) : (Verbosity.shows { verbose := true, quiet := false } n && !n.isError) = !n.isError := by
      simp [Verbosity.shows]
    simp only [printOut, all]
  plain := by
    have loud (n : Notice) :
        (Verbosity.shows { verbose := false, quiet := false } n && !n.isError) = (!n.isDetail && !n.isError) := by
      cases n <;> rfl
    simp only [printOut, loud, List.filter_filter]

theorem printErr_eq (p : Palette) (v : Verbosity) (notices : List Notice) :
    printErr p v notices = String.join ((notices.filter Notice.isError).map (Notice.print p)) := by
  have always (n : Notice) : (v.shows n && n.isError) = n.isError := by
    cases failed : n.isError <;> simp [Verbosity.shows, failed]
  simp only [printErr, always]

end ImageRelease
