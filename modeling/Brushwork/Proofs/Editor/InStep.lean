import Brushwork.Editor.Window
import Brushwork.Proofs.Machine.Session
import Brushwork.Proofs.Report.Stages

/-!
The window and its canvas stay in step.

The size of the canvas is kept three times: in the size box, in the view, and by the machine whose
canvas is shown. Only runs and the size box itself touch them:

* `Window.Shares`: windows with the same size that show the same canvas. All gestures but these two
  lead to such a window, whether they fail or not.
* `canvas_of_ends`: a run that is over leaves a canvas of the size that it was given.
* `Window.InStep`: the three sizes agree. `Window.InStep.act`: every gesture keeps it so.
* `CanvasView.cells` and `CanvasView.draw_congr`: the cells that are looked at when the view is drawn.
* `window_in_step`: the sizes agree in every window that can be come to, and drawing it looks at
  cells of the canvas only.
-/

namespace Brushwork.Editor

/-! ### Drawing -/

namespace CanvasView

/-- The cells that are looked at when the view is drawn, row by row. -/
def cells (v : CanvasView) : List (Nat × Nat) :=
  (List.range v.size.toNat).flatMap fun y => (List.range v.size.toNat).map fun x => (x, y)

lemma mem_cells {v : CanvasView} {x y : Nat} :
    (x, y) ∈ v.cells ↔ x < v.size.toNat ∧ y < v.size.toNat := by
  simp [cells, and_comm]

lemma squares_congr {m m' : Machine} {size : Nat}
    (h : ∀ x y, x < size → y < size → cellColor? m' x y = cellColor? m x y)
    (left top cell : Float) : squares m' size left top cell = squares m size left top cell := by
  refine List.flatMap_congr fun y hy => List.filterMap_congr fun x hx => ?_
  rw [h x y (List.mem_range.1 hx) (List.mem_range.1 hy)]

/-- **Drawing looks at no other cells**: two machines that agree on these are drawn alike. -/
theorem draw_congr {v : CanvasView} {m m' : Machine} (hm : v.machine = some m)
    (h : ∀ p ∈ v.cells, cellColor? m' p.1 p.2 = cellColor? m p.1 p.2) (width height : Int)
    (color : String) :
    { v with machine := some m' }.draw width height color = v.draw width height color := by
  have hcells : ∀ x y, x < v.size.toNat → y < v.size.toNat →
      cellColor? m' x y = cellColor? m x y :=
    fun x y hx hy => h (x, y) (mem_cells.2 ⟨hx, hy⟩)
  simp only [draw, hm, squares_congr hcells]

end CanvasView

/-! ### Runs -/

/-- **A run that is over** leaves a canvas of the size that it was given. -/
theorem canvas_of_ends {source : String} {n : Nat} {limit : Option Int} {patience : Nat}
    {failed : Option Stage} {notes : List Note} {m : Machine}
    (h : Ends source n limit patience failed notes (some m)) : ∃ k, m.easel.canvas.Fits n k := by
  have hrun : ∀ {statements : Array Stmt} {m₀ : Machine}, Machine.new statements n = .ok m₀ →
      (m₀.execute limit patience).1.easel.InOrder n :=
    fun hnew => ((Machine.inOrder_new hnew).execute limit patience).easel
  cases h with
  | running _ hnew hexecute =>
      have heasel := hrun hnew
      rw [hexecute] at heasel
      exact ⟨_, heasel.canvas⟩
  | finished _ hnew hexecute =>
      have heasel := hrun hnew
      rw [hexecute] at heasel
      exact ⟨_, heasel.canvas⟩

namespace Window

variable {w w' w'' : Window}

/-! ### Gestures that leave the canvas alone -/

/-- The other window has the same size set and shows the same canvas. -/
structure Shares (w w' : Window) : Prop where
  size : w'.size = w.size
  shown : w'.view.size = w.view.size
  machine : w'.view.machine = w.view.machine

lemma Shares.refl (w : Window) : w.Shares w := ⟨rfl, rfl, rfl⟩

lemma Shares.trans (h : w.Shares w') (h' : w'.Shares w'') : w.Shares w'' :=
  ⟨h'.size.trans h.size, h'.shown.trans h.shown, h'.machine.trans h.machine⟩

lemma shares_showFirstError (w : Window) : w.Shares w.showFirstError := by
  rw [showFirstError]
  split <;> exact ⟨rfl, rfl, rfl⟩

lemma shares_showDiagnostics (w : Window) : w.Shares w.showDiagnostics.1 := by
  rw [showDiagnostics]
  split <;> exact ⟨rfl, rfl, rfl⟩

lemma shares_reactWithDiagnostics (w : Window) (focus : Bool) :
    w.Shares (w.reactWithDiagnostics focus).window := by
  have hshow := w.shares_showDiagnostics
  rw [reactWithDiagnostics]
  split
  · next w' hw' =>
    rw [hw'] at hshow
    cases focus with
    | true => exact hshow.trans w'.shares_showFirstError
    | false => exact hshow
  · next w' e hw' =>
    rw [hw'] at hshow
    exact hshow

lemma shares_loadFile (w : Window) (p : File.Path) : w.Shares (w.loadFile p).1 := by
  rw [loadFile]
  split <;> exact ⟨rfl, rfl, rfl⟩

lemma shares_openFile (w : Window) (answer : String) : w.Shares (w.openFile answer).window := by
  rw [openFile]
  split
  · exact .refl w
  · exact w.shares_loadFile _

lemma shares_loadSample (w : Window) (answer : String) :
    w.Shares (w.loadSample answer).window := by
  have hload := w.shares_loadFile (.ofString answer)
  rw [loadSample]
  split
  · exact .refl w
  · split
    · next w' hw' =>
      rw [hw'] at hload
      exact ⟨hload.size, hload.shown, hload.machine⟩
    · next w' e hw' =>
      rw [hw'] at hload
      exact hload

lemma shares_saveFile (w : Window) (answer : String) : w.Shares (w.saveFile answer).window := by
  rw [saveFile]
  split
  · exact .refl w
  · dsimp only
    split <;> exact ⟨rfl, rfl, rfl⟩

lemma shares_chooseBudget (w : Window) (value : Int) (accepted : Bool) :
    w.Shares (w.chooseBudget value accepted).window := by
  rw [chooseBudget]
  split
  · exact .refl w
  · cases accepted <;> exact ⟨rfl, rfl, rfl⟩

/-- Another theme shows the same canvas in other colors. -/
lemma shares_chooseTheme (w : Window) (choice : Option Mode) (accepted : Bool) :
    w.Shares (w.chooseTheme choice accepted).window := by
  rw [chooseTheme]
  cases accepted <;> exact ⟨rfl, rfl, rfl⟩

lemma shares_lint (w : Window) : w.Shares w.lint.window := by
  have hfirst : w.Shares { w with lintDue := false } := ⟨rfl, rfl, rfl⟩
  rw [lint]
  split
  · exact hfirst.trans (shares_reactWithDiagnostics _ false)
  · exact .refl w

lemma shares_visit (w : Window) (index : Nat) : w.Shares (w.visit index) := by
  rw [visit]
  split <;> exact ⟨rfl, rfl, rfl⟩

/-! ### Gestures that change the canvas -/

/-- The size box is within its bounds, the view has its size, and so has the canvas of a machine that
is shown, row by row. -/
structure InStep (w : Window) : Prop where
  least : 1 ≤ w.size
  greatest : w.size ≤ 256
  shown : w.view.size = w.size
  canvas : ∀ m, w.view.machine = some m → ∃ k, m.easel.canvas.Fits w.size k

lemma InStep.of_shares (h : w.InStep) (hw : w.Shares w') : w'.InStep := by
  refine ⟨?_, ?_, ?_, ?_⟩
  · rw [hw.size]
    exact h.least
  · rw [hw.size]
    exact h.greatest
  · rw [hw.shown, hw.size]
    exact h.shown
  · rw [hw.machine, hw.size]
    exact h.canvas

/-- A new window shows a blank canvas of the size in its box. -/
lemma inStep_new {box : SizeBox} {settings : Settings} {lightness : Int} {folder : File.Folder}
    (h : Window.new box settings lightness folder = .ok w) : w.InStep := by
  rw [Window.new] at h
  cases hsize : settings.int sizeSetting defaultSize with
  | error e =>
      rw [hsize] at h
      cases h
  | ok n =>
      rw [hsize] at h
      obtain rfl := Except.ok.inj h
      obtain ⟨hleast, hgreatest⟩ := box.settle_bounds n
      exact ⟨hleast, hgreatest, rfl, fun m hm => by cases hm⟩

/-- Another size in the box comes with a blank canvas of that size. Where the box is silent its size has
not changed. -/
lemma InStep.setSize (h : w.InStep) (value : Int) : (w.setSize value).InStep := by
  obtain ⟨hleast, hgreatest⟩ := w.box.settle_bounds value
  rw [Window.setSize]
  split
  · exact ⟨hleast, hgreatest, rfl, fun m hm => by cases hm⟩
  · next hsilent =>
    have hsize : w.box.settle value = w.size := by
      by_contra hne
      exact hsilent (w.box.signals_of_ne _ _ hne)
    rw [hsize]
    exact h

/-- A report comes with the canvas of its run, or else with a blank one. -/
lemma InStep.showReport (h : w.InStep) {report : Report}
    (hcanvas : ∀ m, report.machine = some m → ∃ k, m.easel.canvas.Fits w.size k) :
    (w.showReport report).InStep := by
  rw [Window.showReport]
  cases hm : report.machine with
  | none =>
      have hblank : { w with view := w.view.showBlank w.size, lastErrors := report.errors }.InStep :=
        ⟨h.least, h.greatest, rfl, fun m hm => by cases hm⟩
      cases report.failed <;> exact hblank.of_shares ⟨rfl, rfl, rfl⟩
  | some m =>
      obtain ⟨k, hfits⟩ := hcanvas m hm
      have hshown : { w with view := w.view.showMachine m, lastErrors := report.errors }.InStep := by
        refine ⟨h.least, h.greatest, congrArg _ hfits.size_eq, fun m' hm' => ?_⟩
        obtain rfl := Option.some.inj hm'
        exact ⟨k, hfits⟩
      cases report.failed <;> exact hshown.of_shares ⟨rfl, rfl, rfl⟩

/-- **What a run does**: it leaves the canvas alone, or comes to a report, which is shown. -/
lemma runText_cases (w : Window) (patience : Nat) :
    w.Shares (w.runText patience).window ∨
    ∃ w' limit report, w.Shares w' ∧
      (runSource w.text w.size limit patience).report = .ok report ∧
      w.runText patience = (w'.showReport report).reactWithDiagnostics true := by
  rw [Window.runText]
  split
  · exact .inl ⟨rfl, rfl, rfl⟩
  · dsimp only
    split
    · exact .inl ⟨rfl, rfl, rfl⟩
    · split
      · exact .inl ⟨rfl, rfl, rfl⟩
      · next report hreport =>
        refine .inr ⟨_, _, report, ?_, hreport, rfl⟩
        exact ⟨rfl, rfl, rfl⟩

lemma InStep.runText (h : w.InStep) (patience : Nat) : (w.runText patience).window.InStep := by
  obtain hw | ⟨w', limit, report, hw, hreport, hrun⟩ := w.runText_cases patience
  · exact h.of_shares hw
  · obtain ⟨notes, hends, -⟩ := ends_of_report hreport
    have hcanvas : ∀ m, report.machine = some m → ∃ k, m.easel.canvas.Fits w'.size k := by
      intro m hm
      rw [hm] at hends
      rw [hw.size]
      exact canvas_of_ends hends
    rw [hrun]
    exact ((h.of_shares hw).showReport hcanvas).of_shares (shares_reactWithDiagnostics _ true)

/-- **Every gesture** leaves the window in step, whether it fails or not. -/
theorem InStep.act (h : w.InStep) (patience : Nat) (g : Gesture) :
    (w.act patience g).window.InStep := by
  cases g with
  | run => exact h.runText patience
  | setSize value => exact h.setSize value
  | openFile answer => exact h.of_shares (w.shares_openFile answer)
  | loadSample answer => exact h.of_shares (w.shares_loadSample answer)
  | saveFile answer => exact h.of_shares (w.shares_saveFile answer)
  | chooseTheme choice accepted => exact h.of_shares (w.shares_chooseTheme choice accepted)
  | chooseBudget value accepted => exact h.of_shares (w.shares_chooseBudget value accepted)
  | idle => exact h.of_shares w.shares_lint
  | visit index => exact h.of_shares (w.shares_visit index)
  | _ => exact h.of_shares ⟨rfl, rfl, rfl⟩

/-- The window can be come to: it was opened with a size box, and then the user did whatever they liked, or it was made
to load a file. Meanwhile files and settings may have changed from outside. -/
inductive Reachable : Window → Prop
  | opened {box : SizeBox} {settings : Settings} {lightness : Int} {folder : File.Folder}
      {w : Window} (h : Window.new box settings lightness folder = .ok w) : Reachable w
  | loaded {w : Window} (h : Reachable w) (p : File.Path) : Reachable (w.loadFile p).1
  | acted {w : Window} (h : Reachable w) (patience : Nat) (g : Gesture) :
      Reachable (w.act patience g).window
  | changed {w : Window} (h : Reachable w) (settings : Settings) (folder : File.Folder) :
      Reachable { w with settings := settings, folder := folder }

lemma Reachable.inStep (h : w.Reachable) : w.InStep := by
  induction h with
  | opened h => exact inStep_new h
  | @loaded w _ p ih => exact ih.of_shares (w.shares_loadFile p)
  | acted _ patience g ih => exact ih.act patience g
  | changed _ settings folder ih => exact ih.of_shares ⟨rfl, rfl, rfl⟩

end Window

/-- **Window and canvas stay in step**, whatever is done and whether it fails or not, with any size box
that keeps within its bounds and says when its value has changed. The size is within these bounds, the
view has it, and so has the canvas of the machine that is shown. Drawing the view looks only at cells of
that canvas, which are all there. -/
theorem window_in_step {w : Window} (h : w.Reachable) :
    (w.view.size = w.size ∧ 1 ≤ w.size ∧ w.size ≤ 256) ∧
    ∀ m, w.view.machine = some m →
      m.easel.canvas.size = w.size ∧
      (∀ p ∈ w.view.cells, m.easel.canvas.contains p.1 p.2 = true ∧
        ∃ row code, m.easel.canvas.rows[p.2]? = some row ∧ row[p.1]? = some code) ∧
      ∀ m', (∀ p ∈ w.view.cells,
          CanvasView.cellColor? m' p.1 p.2 = CanvasView.cellColor? m p.1 p.2) →
        ∀ width height, { w with view.machine := some m' }.draw width height =
          w.draw width height := by
  obtain ⟨hleast, hgreatest, hshown, hcanvas⟩ := h.inStep
  refine ⟨⟨hshown, hleast, hgreatest⟩, fun m hm => ?_⟩
  obtain ⟨k, hfits⟩ := hcanvas m hm
  refine ⟨hfits.size_eq, fun p hp => ?_, fun m' hm' width height => ?_⟩
  · obtain ⟨hx, hy⟩ : p.1 < w.size ∧ p.2 < w.size := by
      have hcell := CanvasView.mem_cells.1 hp
      rwa [hshown, Int.toNat_natCast] at hcell
    exact hfits.exists_cell hx hy
  · exact CanvasView.draw_congr hm hm' width height _

/-- A window whose size box was set too large and then small, and where a run has painted and stopped
at a fault. -/
def stumblingWindow : Except SettingError Window := do
  let w ← Window.new .nearest ⟨[(sizeSetting, .ofInt 900)]⟩ 200 ⟨[]⟩
  let w := (w.act 0 (.setSize 2)).window
  let w := (w.act 0 (.type "Spawn(0, 0)\nColor(\"Red\")\nDrawLine(1, 1, 1)\nSize(1 / 0)")).window
  let w := (w.act 0 .run).window
  return (w.act 0 (.chooseTheme (some .dark) true)).window

theorem window_in_step_stumblingWindow :
    ∃ w m, stumblingWindow = .ok w ∧ w.Reachable ∧ w.size = 2 ∧ w.view.machine = some m ∧
      m.easel.colorAt? 1 1 = some "Red" ∧
      (w.view.size = w.size ∧ 1 ≤ w.size ∧ w.size ≤ 256) ∧
      ∀ m, w.view.machine = some m →
        m.easel.canvas.size = w.size ∧
        (∀ p ∈ w.view.cells, m.easel.canvas.contains p.1 p.2 = true ∧
          ∃ row code, m.easel.canvas.rows[p.2]? = some row ∧ row[p.1]? = some code) ∧
        ∀ m', (∀ p ∈ w.view.cells,
            CanvasView.cellColor? m' p.1 p.2 = CanvasView.cellColor? m p.1 p.2) →
          ∀ width height, { w with view.machine := some m' }.draw width height =
            w.draw width height := by
  have hopened : ∃ w, Window.new .nearest ⟨[(sizeSetting, .ofInt 900)]⟩ 200 ⟨[]⟩ = .ok w := ⟨_, rfl⟩
  obtain ⟨w₀, hnew⟩ := hopened
  have hreach : ∀ w, stumblingWindow = .ok w → w.Reachable := by
    intro w hw
    rw [stumblingWindow, hnew] at hw
    obtain rfl := Except.ok.inj hw
    exact ((((Window.Reachable.opened hnew).acted 0 _).acted 0 _).acted 0 _).acted 0 _
  have hshown : (stumblingWindow.toOption.any fun w => w.size = 2 && w.view.machine.any fun m =>
      m.easel.colorAt? 1 1 == some "Red") = true := by
    decide +kernel
  cases hw : stumblingWindow with
  | error e =>
      rw [hw] at hshown
      cases hshown
  | ok w =>
      rw [hw] at hshown
      obtain ⟨hsize, hred⟩ := (Bool.and_eq_true _ _).mp hshown
      obtain ⟨m, hm, hred⟩ := (Option.any_eq_true _ _).1 hred
      exact ⟨w, m, rfl, hreach w hw, of_decide_eq_true hsize, hm, eq_of_beq hred,
        window_in_step (hreach w hw)⟩

end Brushwork.Editor
