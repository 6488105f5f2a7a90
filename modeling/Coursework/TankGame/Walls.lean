import Coursework.TankGame.Ground
import Coursework.TankGame.Volley

/-!
# Tanks and walls

A tank is tested for walls with a box at least as large as its frame less a step, and is put
back only to where it started: it never stands in a wall.
-/

namespace Coursework.TankGame

open Java Transition

/-- The box of a frame of a tank for the tests, where the tank stands. -/
def TankObject.standingBox (tank : TankObject) : Rectangle := ⟨tank.x, tank.y, 54, 54⟩

/-- A box meets no wall of a map. -/
def WallFree (level : Level) (box : Rectangle) : Prop :=
  ∀ cell : Fin 40 × Fin 39, level cell.1 cell.2 = '1' ∨ level cell.1 cell.2 = '2' →
    box.intersects (wallBox tankStep cell) = false

/-- No walls come up in a map that is worn down. -/
theorem WallFree.eroded {before after : Level} {box : Rectangle} (h : WallFree before box)
    (heroded : Eroded before after) : WallFree after box := by
  intro cell hcell
  refine h cell ?_
  rcases heroded cell.1 cell.2 with hsame | ⟨hwall, -⟩
  · rw [hsame] at hcell
    exact hcell
  · exact Or.inr hwall

/-- A tank whose test box is as large as that of a frame. -/
structure TankObject.Whole (tank : TankObject) : Prop where
  width : 64 ≤ tank.width
  height : 64 ≤ tank.height

/-- A tank that passes the wall test can stand at its next place. -/
theorem TankObject.Whole.wallFree {tank : TankObject} (h : tank.Whole) (wall : WallObject)
    (htest : tank.collisionToWall wall = false) :
    WallFree wall.wallArray ⟨tank.nextX, tank.nextY, 54, 54⟩ := by
  intro cell hcell
  have hwall : wall.isWall cell = true := by
    rw [WallObject.isWall, Bool.or_eq_true, beq_iff_eq, beq_iff_eq]
    exact hcell
  have hbox := List.any_eq_false.mp htest cell (mem_cells cell)
  rw [hwall, Bool.true_and] at hbox
  refine Bool.eq_false_iff.mpr fun hmeets => hbox ?_
  refine Rectangle.intersects_grow hmeets ?_ ?_
  · change 54 ≤ tank.width - 10
    have := h.width
    omega
  · change 54 ≤ tank.height - 10
    have := h.height
    omega

/-- The tanks stand on free ground. -/
structure Clear (level : Level) (panel : AnimationPanel) : Prop where
  grounded : Grounded level (spawn level) panel
  whole : ∀ t, (panel.tank t).Whole
  wallFree : ∀ t, WallFree panel.breakableWall.wallArray (panel.tank t).standingBox

/-- One tank may change if it still stands on free ground. -/
theorem Clear.of_update {level : Level} {panel next : AnimationPanel} (h : Clear level panel)
    (hgrounded : Grounded level (spawn level) next)
    (heroded : Eroded panel.breakableWall.wallArray next.breakableWall.wallArray) (t : Tank)
    (tank : TankObject) (htank : next.tank = Function.update panel.tank t tank)
    (hwhole : tank.Whole) (hfree : WallFree next.breakableWall.wallArray tank.standingBox) :
    Clear level next where
  grounded := hgrounded
  whole := by
    rw [htank]
    exact (Function.forall_update_iff panel.tank fun _ tank => tank.Whole).mpr
      ⟨hwhole, fun u _ => h.whole u⟩
  wallFree := by
    rw [htank]
    exact (Function.forall_update_iff panel.tank
      fun _ tank => WallFree next.breakableWall.wallArray tank.standingBox).mpr
      ⟨hfree, fun u _ => (h.wallFree u).eroded heroded⟩

/-- A map worn down leaves the tanks on free ground. -/
theorem Clear.of_eroded {level : Level} {panel next : AnimationPanel} (h : Clear level panel)
    (hgrounded : Grounded level (spawn level) next)
    (heroded : Eroded panel.breakableWall.wallArray next.breakableWall.wallArray)
    (htank : next.tank = panel.tank) : Clear level next where
  grounded := hgrounded
  whole := htank ▸ h.whole
  wallFree := htank ▸ fun t => (h.wallFree t).eroded heroded

/-- A move ends on free ground. -/
theorem Clear.move {level : Level} {panel : AnimationPanel} (h : Clear level panel) (t : Tank)
    (next : TankObject → TankObject)
    (hnext : (next (panel.tank t)).standingBox = (panel.tank t).standingBox ∧
      (next (panel.tank t)).width = (panel.tank t).width ∧
      (next (panel.tank t)).height = (panel.tank t).height) : Clear level (panel.move t next) := by
  obtain ⟨hbox, hwidth, hheight⟩ := hnext
  have hwhole : (next (panel.tank t)).Whole :=
    ⟨hwidth ▸ (h.whole t).width, hheight ▸ (h.whole t).height⟩
  have hground := h.grounded.move t next
  obtain ⟨tank, hmove, hplace⟩ := panel.move_eq t next
  rw [hmove] at hground ⊢
  have heroded : Eroded panel.breakableWall.wallArray
      (panel.setTank t tank).setArray.breakableWall.wallArray := by
    change Eroded _ panel.breakableWall.setArray.wallArray
    rw [panel.breakableWall.setArray_wallArray h.grounded.source]
    exact .refl _
  rcases hplace with rfl | ⟨htest, -, rfl⟩
  · refine h.of_update hground heroded t _ rfl hwhole ?_
    rw [hbox]
    exact (h.wallFree t).eroded heroded
  · exact h.of_update hground heroded t _ rfl ⟨hwhole.width, hwhole.height⟩
      (hwhole.wallFree _ htest)

/-- A tank that is put back stands where it started. -/
theorem Clear.hit {level : Level} {panel : AnimationPanel}
    (hspawn : ∀ t, WallFree level ((AnimationPanel.new level).tank t).standingBox)
    (h : Clear level panel) (t : Tank) : Clear level (panel.hit t) := by
  have heroded : Eroded panel.breakableWall.wallArray (panel.hit t).breakableWall.wallArray := by
    rw [panel.hit_breakableWall]
    exact .refl _
  have htank := h.grounded.hit_tank t
  split at htank
  · refine h.of_update (h.grounded.hit t) heroded t _ htank
      ⟨(h.whole t).width, (h.whole t).height⟩ ?_
    exact (hspawn t).eroded (h.grounded.hit t).eroded
  · exact h.of_eroded (h.grounded.hit t) heroded htank

/-- Every event leaves the tanks on free ground. -/
theorem Clear.kept (trig : Trigonometry) (level : Level)
    (hspawn : ∀ t, WallFree level ((AnimationPanel.new level).tank t).standingBox) :
    Kept trig (Clear level) where
  setKey := fun panel t control down h =>
    h.of_eroded ((Grounded.kept trig level (spawn level)).setKey panel t control down h.grounded) (.refl _) rfl
  animations := fun panel animations h =>
    h.of_eroded ((Grounded.kept trig level (spawn level)).animations panel animations h.grounded) (.refl _) rfl
  rotateLeft := fun panel t h =>
    h.of_update ((Grounded.kept trig level (spawn level)).rotateLeft panel t h.grounded) (.refl _) t _ rfl
      ⟨Int.le_refl _, Int.le_refl _⟩ (h.wallFree t)
  rotateRight := fun panel t h =>
    h.of_update ((Grounded.kept trig level (spawn level)).rotateRight panel t h.grounded) (.refl _) t _ rfl
      ⟨Int.le_refl _, Int.le_refl _⟩ (h.wallFree t)
  forwardMove := fun _ t h => h.move t _ ⟨rfl, rfl, rfl⟩
  reverseMove := fun _ t h => h.move t _ ⟨rfl, rfl, rfl⟩
  meetWall := by
    intro panel bullet h
    refine h.of_eroded ((Grounded.kept trig level (spawn level)).meetWall panel bullet h.grounded)
      (h.grounded.meetWall bullet).2 ?_
    rw [AnimationPanel.meetWall]
    split <;> rfl
  hit := fun _ t h => h.hit hspawn t
  paint := fun panel h =>
    h.of_eroded ((Grounded.kept trig level (spawn level)).paint panel h.grounded) (.refl _) rfl

/-- Play starts on free ground if the starting places are free. -/
theorem Clear.new {level : Level}
    (hspawn : ∀ t, WallFree level ((AnimationPanel.new level).tank t).standingBox) :
    Clear level (AnimationPanel.new level) where
  grounded := .new level
  whole := by
    intro t
    cases t with
    | tank1 => exact ⟨(by decide : (64 : ℤ) ≤ 3840), Int.le_refl 64⟩
    | tank2 => exact ⟨(by decide : (64 : ℤ) ≤ 3840), Int.le_refl 64⟩
  wallFree := fun t => (hspawn t).eroded (Grounded.new level).eroded

/-- Whatever is played, tanks stand on free ground, and from any state to a later one the map only loses
breakable walls. -/
theorem run_wallFree (trig : Trigonometry) (level : Level)
    (hspawn : ∀ t, WallFree level ((AnimationPanel.new level).tank t).standingBox)
    (events later : List Event) :
    (∀ t, WallFree ((game trig).run (.new level) events).breakableWall.wallArray
      (((game trig).run (.new level) events).tank t).standingBox) ∧
    Eroded level ((game trig).run (.new level) events).breakableWall.wallArray ∧
    Eroded ((game trig).run (.new level) events).breakableWall.wallArray
      ((game trig).run (.new level) (events ++ later)).breakableWall.wallArray := by
  have hclear := (Clear.kept trig level hspawn).run trig (.new hspawn) events
  refine ⟨hclear.wallFree, hclear.grounded.eroded, ?_⟩
  rw [TotalMachine.run_append]
  exact ((Grounded.kept trig _ (spawn level)).run trig hclear.grounded.rebase later).eroded

/-- The cells at the border of the map. -/
def OnBorder (cell : Fin 40 × Fin 39) : Prop :=
  cell.1.val = 0 ∨ cell.1.val = 39 ∨ cell.2.val = 0 ∨ cell.2.val = 38

/-- A duel within a border of walls. -/
def arena : Level := fun row column =>
  if row.val = 0 ∨ row.val = 39 ∨ column.val = 0 ∨ column.val = 38 then '1' else duel row column

/-- The border of the arena is unbreakable. -/
theorem arena_border (cell : Fin 40 × Fin 39) (h : OnBorder cell) : arena cell.1 cell.2 = '1' :=
  if_pos h

/-- The walls of the arena are those of the border. -/
theorem arena_wall (cell : Fin 40 × Fin 39)
    (h : arena cell.1 cell.2 = '1' ∨ arena cell.1 cell.2 = '2') : OnBorder cell := by
  by_contra hinner
  rw [OnBorder] at hinner
  rw [arena, if_neg hinner, duel] at h
  split_ifs at h <;> exact absurd h (by decide)

/-- Each player has one cell of the arena. -/
theorem arena_eq_iff (t : Tank) (cell : Fin 40 × Fin 39) :
    arena cell.1 cell.2 = duelPosition t ↔ cell = duelCell t := by
  rw [← duel_eq_iff, arena]
  split
  · rename_i hborder
    have hcell : cell ≠ duelCell t := by
      rintro rfl
      cases t <;> exact absurd hborder (by decide)
    refine iff_of_false ?_ (mt (duel_eq_iff t cell).mp hcell)
    cases t <;> exact (by decide)
  · exact Iff.rfl

/-- The tanks start in the cells of their players. -/
theorem tank_new_arena (t : Tank) :
    (((AnimationPanel.new arena).tank t).x, ((AnimationPanel.new arena).tank t).y) =
      corner (duelCell t) := by
  have hwall : (AnimationPanel.new arena).breakableWall.wallArray = arena :=
    WallObject.setArray_new_wallArray arena
  have hposition : ((AnimationPanel.new arena).player t).tankPosition = duelPosition t := by
    cases t <;> rfl
  refine ((Grounded.new arena).place t).symm.trans ?_
  refine Players.initPosition_of_unique _ _ (duelCell t) ?_ ?_
  · rw [hwall, hposition]
    exact (arena_eq_iff t _).mpr rfl
  · intro other hother
    rw [hwall, hposition] at hother
    exact (arena_eq_iff t _).mp hother

/-- The starting places are free. -/
theorem wallFree_arena (t : Tank) :
    WallFree arena ((AnimationPanel.new arena).tank t).standingBox := by
  intro cell hcell
  have hborder := arena_wall cell hcell
  rw [OnBorder] at hborder
  have hplace := tank_new_arena t
  rw [Prod.mk.injEq] at hplace
  rw [TankObject.standingBox, hplace.1, hplace.2, Bool.eq_false_iff, Ne, Rectangle.intersects_iff]
  simp only [wallBox, corner, wallSize, tankStep]
  cases t with
  | tank1 =>
    change ¬(0 < 54 ∧ 0 < 54 ∧ _ ∧ _ ∧ _ < 160 + 54 ∧ 160 < _ ∧ _ < 160 + 54 ∧ 160 < _)
    omega
  | tank2 =>
    change ¬(0 < 54 ∧ 0 < 54 ∧ _ ∧ _ ∧ _ < 224 + 54 ∧ 224 < _ ∧ _ < 160 + 54 ∧ 160 < _)
    omega

/-- A drive and a shot behind the border. -/
theorem run_wallFree_arena :
    (∀ t, WallFree ((game eastward).run (.new arena)
        [.keyPressed .tank1 .left, .keyPressed .tank1 .up, .tick]).breakableWall.wallArray
      (((game eastward).run (.new arena)
        [.keyPressed .tank1 .left, .keyPressed .tank1 .up, .tick]).tank t).standingBox) ∧
    Eroded arena ((game eastward).run (.new arena)
      [.keyPressed .tank1 .left, .keyPressed .tank1 .up, .tick]).breakableWall.wallArray ∧
    Eroded ((game eastward).run (.new arena)
        [.keyPressed .tank1 .left, .keyPressed .tank1 .up, .tick]).breakableWall.wallArray
      ((game eastward).run (.new arena)
        ([.keyPressed .tank1 .left, .keyPressed .tank1 .up, .tick] ++
          [.keyPressed .tank1 .fire, .tick, .paint])).breakableWall.wallArray :=
  run_wallFree eastward arena wallFree_arena _ _

end Coursework.TankGame
