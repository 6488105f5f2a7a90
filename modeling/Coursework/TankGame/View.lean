import Coursework.TankGame.Walls
import Mathlib.Algebra.Order.Group.Unbundled.Int

/-!
# What the two players see

Each player sees a part of the painted image that follows the tank and is held within the
image. On a level with a border of walls a tank stays behind the border, and so its frame is
always seen as a whole.
-/

namespace Coursework.TankGame

open Java

/-- `WIDTH`. -/
def panelWidth : ℤ := 1250

/-- `HEIGHT`. -/
def panelHeight : ℤ := 1280

/-- `SET_HEIGHT`. -/
def setHeight : ℤ := 960

/-- `getTankViewX`. -/
def getTankViewX (tanks : TankObject) : ℤ :=
  let viewX := tanks.x - panelWidth / 4
  let viewX := if viewX < 0 then 0 else viewX
  if viewX > panelWidth / 2 then panelWidth / 2 else viewX

/-- `getTankViewY`. -/
def getTankViewY (tanks : TankObject) : ℤ :=
  let viewY := tanks.y - setHeight / 2
  let viewY := if viewY < 0 then 0 else viewY
  if viewY > panelHeight - setHeight then panelHeight - setHeight else viewY

/-- The image that the panel is painted to. -/
def miniImage : Rectangle := ⟨0, 0, panelWidth, panelHeight⟩

/-- The part of it that is shown to the player of a tank. -/
def tankView (tanks : TankObject) : Rectangle :=
  ⟨getTankViewX tanks, getTankViewY tanks, panelWidth / 2, setHeight⟩

/-- Where `repaint` of a tank draws the frame of its direction. -/
def TankObject.drawnFrame (tank : TankObject) : Rectangle := ⟨tank.x, tank.y, 64, 64⟩

/-- A rectangle lies in another one. -/
structure LiesIn (inner outer : Rectangle) : Prop where
  left : outer.x ≤ inner.x
  right : inner.x + inner.width ≤ outer.x + outer.width
  top : outer.y ≤ inner.y
  bottom : inner.y + inner.height ≤ outer.y + outer.height

/-- The view of a player lies in the image, wherever the tank is. -/
theorem tankView_liesIn (tanks : TankObject) : LiesIn (tankView tanks) miniImage := by
  constructor <;>
    simp only [tankView, miniImage, getTankViewX, getTankViewY, panelWidth, panelHeight, setHeight]
      <;> omega

/-- A tank is behind the border of the map. -/
structure TankObject.Inside (tank : TankObject) : Prop where
  left : 22 ≤ tank.x
  right : tank.x + 54 ≤ 1216
  top : 22 ≤ tank.y
  bottom : tank.y + 54 ≤ 1248

/-- The frame of a tank behind the border lies in the view of its player. -/
theorem TankObject.Inside.liesIn_tankView {tank : TankObject} (h : tank.Inside) :
    LiesIn tank.drawnFrame (tankView tank) := by
  obtain ⟨hleft, hright, htop, hbottom⟩ := h
  constructor <;>
    simp only [TankObject.drawnFrame, tankView, getTankViewX, getTankViewY, panelWidth, panelHeight,
      setHeight] <;> omega

/-- A tank that stands on free ground of the map is behind the border. -/
theorem TankObject.inside_of_wallFree {level : Level}
    (hborder : ∀ cell, OnBorder cell → level cell.1 cell.2 = '1') {tank : TankObject}
    (hfree : WallFree level tank.standingBox) (hx : 0 ≤ tank.x ∧ tank.x < 1238)
    (hy : 0 ≤ tank.y ∧ tank.y < 1270) : tank.Inside := by
  have hcell : ∀ cell, OnBorder cell →
      ¬(((cell.2 : ℕ) : ℤ) * 32 < tank.x + 54 ∧ tank.x < ((cell.2 : ℕ) : ℤ) * 32 + 22 ∧
        ((cell.1 : ℕ) : ℤ) * 32 < tank.y + 54 ∧ tank.y < ((cell.1 : ℕ) : ℤ) * 32 + 22) := by
    intro cell hon hmeet
    have htest := hfree cell (Or.inl (hborder cell hon))
    rw [Bool.eq_false_iff, Ne, Rectangle.intersects_iff] at htest
    refine htest ?_
    simp only [TankObject.standingBox, wallBox, corner, wallSize, tankStep]
    omega
  obtain ⟨row, hrow, hrowLow, hrowHigh⟩ : ∃ row : ℕ, row < 40 ∧
      (row : ℤ) * 32 < tank.y + 54 ∧ tank.y < (row : ℤ) * 32 + 22 :=
    ⟨((tank.y + 10) / 32).toNat, by omega⟩
  obtain ⟨column, hcolumn, hcolumnLow, hcolumnHigh⟩ : ∃ column : ℕ, column < 39 ∧
      (column : ℤ) * 32 < tank.x + 54 ∧ tank.x < (column : ℤ) * 32 + 22 :=
    ⟨((tank.x + 10) / 32).toNat, by omega⟩
  have hleft := hcell (⟨row, hrow⟩, ⟨0, by omega⟩) (Or.inr (Or.inr (Or.inl rfl)))
  have hright := hcell (⟨row, hrow⟩, ⟨38, by omega⟩) (Or.inr (Or.inr (Or.inr rfl)))
  have htop := hcell (⟨0, by omega⟩, ⟨column, hcolumn⟩) (Or.inl rfl)
  have hbottom := hcell (⟨39, by omega⟩, ⟨column, hcolumn⟩) (Or.inr (Or.inl rfl))
  simp only at hleft hright htop hbottom
  constructor <;> omega

/-- A step that ends on free ground ends behind the border. -/
theorem TankObject.Inside.step {level : Level}
    (hborder : ∀ cell, OnBorder cell → level cell.1 cell.2 = '1') {tank stepped : TankObject}
    (h : tank.Inside) (hx : |stepped.x - tank.x| ≤ tankStep) (hy : |stepped.y - tank.y| ≤ tankStep)
    (hfree : WallFree level stepped.standingBox) : stepped.Inside := by
  obtain ⟨hleft, hright, htop, hbottom⟩ := h
  rw [abs_le, tankStep] at hx hy
  apply TankObject.inside_of_wallFree hborder hfree <;> omega

/-- The cells that players are put to are cells of the map. -/
theorem Players.initPosition_mem (player : Players) (wall : WallObject)
    (h : 0 ≤ player.tankX ∧ player.tankX ≤ 1216 ∧ 0 ≤ player.tankY ∧ player.tankY ≤ 1248) :
    0 ≤ (player.initPosition wall).1 ∧ (player.initPosition wall).1 ≤ 1216 ∧
      0 ≤ (player.initPosition wall).2 ∧ (player.initPosition wall).2 ≤ 1248 := by
  have hfold : ∀ (entries : List (Fin 40 × Fin 39)) (start : ℤ × ℤ),
      (0 ≤ start.1 ∧ start.1 ≤ 1216 ∧ 0 ≤ start.2 ∧ start.2 ≤ 1248) →
      let found := entries.foldl (fun found cell =>
        if wall.wallArray cell.1 cell.2 == player.tankPosition then corner cell else found) start
      0 ≤ found.1 ∧ found.1 ≤ 1216 ∧ 0 ≤ found.2 ∧ found.2 ≤ 1248 := by
    intro entries
    induction entries with
    | nil => exact fun _ hstart => hstart
    | cons cell rest ih =>
      intro start hstart
      refine ih (if wall.wallArray cell.1 cell.2 == player.tankPosition then corner cell
        else start) ?_
      split
      · have hrow := cell.1.isLt
        have hcolumn := cell.2.isLt
        simp only [corner, wallSize]
        omega
      · exact hstart
  exact hfold cells (player.tankX, player.tankY) h

/-- Play starts behind the border. -/
theorem inside_new {level : Level} (hborder : ∀ cell, OnBorder cell → level cell.1 cell.2 = '1')
    (hspawn : ∀ t, WallFree level ((AnimationPanel.new level).tank t).standingBox) (t : Tank) :
    ((AnimationPanel.new level).tank t).Inside := by
  have hplace : 0 ≤ (spawn level t).1 ∧ (spawn level t).1 ≤ 1216 ∧
      0 ≤ (spawn level t).2 ∧ (spawn level t).2 ≤ 1248 := by
    cases t with
    | tank1 => exact (Players.new '3').initPosition_mem (WallObject.new level).setArray (by decide)
    | tank2 => exact (Players.new '4').initPosition_mem (WallObject.new level).setArray (by decide)
  obtain ⟨hleft, hright, htop, hbottom⟩ := hplace
  exact TankObject.inside_of_wallFree hborder (hspawn t) ⟨hleft, hright.trans_lt (by decide)⟩
    ⟨htop, hbottom.trans_lt (by decide)⟩

/-- The tanks stand on free ground behind the border. -/
structure Bordered (level : Level) (panel : AnimationPanel) : Prop where
  clear : Clear level panel
  inside : ∀ t, (panel.tank t).Inside

/-- The map keeps its border. -/
theorem Clear.border {level : Level} {panel : AnimationPanel} (h : Clear level panel)
    (hborder : ∀ cell, OnBorder cell → level cell.1 cell.2 = '1') (cell : Fin 40 × Fin 39)
    (hon : OnBorder cell) : panel.breakableWall.wallArray cell.1 cell.2 = '1' :=
  (h.grounded.eroded.eq_iff (by decide) (by decide) cell.1 cell.2).mpr (hborder cell hon)

/-- A move by one step ends behind the border. -/
theorem Bordered.move {level : Level} {panel : AnimationPanel}
    (hborder : ∀ cell, OnBorder cell → level cell.1 cell.2 = '1') (h : Bordered level panel)
    (t : Tank) (next : TankObject → TankObject)
    (hstays : (next (panel.tank t)).x = (panel.tank t).x ∧
      (next (panel.tank t)).y = (panel.tank t).y)
    (hnext : |(next (panel.tank t)).nextX - (panel.tank t).x| ≤ tankStep ∧
      |(next (panel.tank t)).nextY - (panel.tank t).y| ≤ tankStep)
    (hclear : Clear level (panel.move t next)) : Bordered level (panel.move t next) := by
  refine ⟨hclear, ?_⟩
  have hfree := hclear.wallFree t
  have hon := hclear.border hborder
  obtain ⟨tank, hmove, hplace⟩ := panel.move_eq t next
  rw [hmove] at hfree hon ⊢
  change WallFree _ ((panel.setTank t tank).tank t).standingBox at hfree
  rw [AnimationPanel.setTank_tank_self] at hfree
  have hinside : tank.Inside := by
    rcases hplace with rfl | ⟨-, -, rfl⟩
    · apply (h.inside t).step hon _ _ hfree
      · rw [hstays.1, sub_self]
        decide
      · rw [hstays.2, sub_self]
        decide
    · exact (h.inside t).step hon hnext.1 hnext.2 hfree
  exact (Function.forall_update_iff panel.tank fun _ tank => tank.Inside).mpr
    ⟨hinside, fun u _ => h.inside u⟩

/-- A tank that is put back is behind the border. -/
theorem Bordered.hit {level : Level} {panel : AnimationPanel}
    (hborder : ∀ cell, OnBorder cell → level cell.1 cell.2 = '1')
    (hspawn : ∀ t, WallFree level ((AnimationPanel.new level).tank t).standingBox)
    (h : Bordered level panel) (t : Tank) : Bordered level (panel.hit t) := by
  refine ⟨h.clear.hit hspawn t, ?_⟩
  rw [h.clear.grounded.hit_tank t]
  split
  · obtain ⟨hleft, hright, htop, hbottom⟩ := inside_new hborder hspawn t
    exact (Function.forall_update_iff panel.tank fun _ tank => tank.Inside).mpr
      ⟨⟨hleft, hright, htop, hbottom⟩, fun u _ => h.inside u⟩
  · exact h.inside

section Moves

variable (trig : Trigonometry)

/-- A step of a tank is no longer than `STEP` in either direction of the image. -/
def Trigonometry.Short : Prop :=
  ∀ index, |trig.cos (angle index) tankStep| ≤ tankStep ∧ |trig.sin (angle index) tankStep| ≤ tankStep

/-- Every event leaves the tanks behind the border. -/
theorem Bordered.kept (hshort : trig.Short) {level : Level}
    (hborder : ∀ cell, OnBorder cell → level cell.1 cell.2 = '1')
    (hspawn : ∀ t, WallFree level ((AnimationPanel.new level).tank t).standingBox) :
    Kept trig (Bordered level) where
  setKey := fun panel t control down h =>
    ⟨(Clear.kept trig level hspawn).setKey panel t control down h.clear, h.inside⟩
  animations := fun panel animations h =>
    ⟨(Clear.kept trig level hspawn).animations panel animations h.clear, h.inside⟩
  rotateLeft := by
    intro panel t h
    obtain ⟨hleft, hright, htop, hbottom⟩ := h.inside t
    exact ⟨(Clear.kept trig level hspawn).rotateLeft panel t h.clear,
      (Function.forall_update_iff panel.tank fun _ tank => tank.Inside).mpr
        ⟨⟨hleft, hright, htop, hbottom⟩, fun u _ => h.inside u⟩⟩
  rotateRight := by
    intro panel t h
    obtain ⟨hleft, hright, htop, hbottom⟩ := h.inside t
    exact ⟨(Clear.kept trig level hspawn).rotateRight panel t h.clear,
      (Function.forall_update_iff panel.tank fun _ tank => tank.Inside).mpr
        ⟨⟨hleft, hright, htop, hbottom⟩, fun u _ => h.inside u⟩⟩
  forwardMove := by
    intro panel t h
    obtain ⟨hcos, hsin⟩ := hshort (panel.tank t).index
    apply h.move hborder t (TankObject.forwardMove trig) ⟨rfl, rfl⟩ _
      ((Clear.kept trig level hspawn).forwardMove panel t h.clear)
    simp only [TankObject.forwardMove]
    rw [add_sub_cancel_left, sub_sub_cancel_left, abs_neg]
    exact ⟨hcos, hsin⟩
  reverseMove := by
    intro panel t h
    obtain ⟨hcos, hsin⟩ := hshort (panel.tank t).index
    apply h.move hborder t (TankObject.reverseMove trig) ⟨rfl, rfl⟩ _
      ((Clear.kept trig level hspawn).reverseMove panel t h.clear)
    simp only [TankObject.reverseMove]
    rw [add_sub_cancel_left, sub_sub_cancel_left, abs_neg]
    exact ⟨hcos, hsin⟩
  meetWall := by
    intro panel bullet h
    refine ⟨(Clear.kept trig level hspawn).meetWall panel bullet h.clear, ?_⟩
    rw [AnimationPanel.meetWall]
    split <;> exact h.inside
  hit := fun _ t h => h.hit hborder hspawn t
  paint := fun panel h => ⟨(Clear.kept trig level hspawn).paint panel h.clear, h.inside⟩

/-- On a level with a border of unbreakable walls and free starting places, whatever is played, each
tank stays behind the border, its player's view lies in the painted image, and the frame of the
tank in this view. -/
theorem run_inView (hshort : trig.Short) (level : Level)
    (hborder : ∀ cell, OnBorder cell → level cell.1 cell.2 = '1')
    (hspawn : ∀ t, WallFree level ((AnimationPanel.new level).tank t).standingBox)
    (events : List Event) (t : Tank) :
    let tank := ((game trig).run (.new level) events).tank t
    tank.Inside ∧ LiesIn tank.drawnFrame (tankView tank) ∧ LiesIn (tankView tank) miniImage := by
  have hinside := ((Bordered.kept trig hshort hborder hspawn).run trig
    ⟨.new hspawn, inside_new hborder hspawn⟩ events).inside t
  exact ⟨hinside, hinside.liesIn_tankView, tankView_liesIn _⟩

end Moves

/-- A drive of the second tank against the border of the arena. -/
theorem run_inView_arena :
    let tank := ((game eastward).run (.new arena)
      (.keyPressed .tank2 .up :: List.replicate 200 .tick)).tank .tank2
    tank.Inside ∧ LiesIn tank.drawnFrame (tankView tank) ∧ LiesIn (tankView tank) miniImage :=
  run_inView eastward (by rw [Trigonometry.Short]; decide) arena arena_border wallFree_arena _ .tank2

end Coursework.TankGame
