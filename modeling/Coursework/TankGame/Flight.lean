import Coursework.TankGame.Walls
import Mathlib.Tactic.Ring
import Mathlib.Algebra.Order.Group.Unbundled.Int

/-!
# The flight of a bullet

A bullet moves before it is tested for the first time, so near the right or the lower border it
may start its flight beyond the walls. Once a test has found it on the map, the border is too
thick to be passed in one step.
-/

namespace Coursework.TankGame

open Java

/-- The rectangle of all cells. -/
def mapBox : Rectangle := ⟨0, 0, 1248, 1280⟩

/-- A bullet as it leaves the muzzle of a tank. -/
def TankObject.shot (trig : Trigonometry) (tank : TankObject) (t : Tank) : BulletAnimation :=
  ⟨t, tank.index, tank.fireStartX trig, tank.fireStartY trig, false⟩

/-- A shot is what a tank adds to the animations. -/
theorem AnimationPanel.fire_animations (trig : Trigonometry) (panel : AnimationPanel) (t : Tank) :
    (panel.fire trig t).animations =
      panel.animations ++ [.shot ((panel.tank t).shot trig t)] :=
  rfl

/-- A bullet frame by frame, each painted in some panel. -/
def flight (trig : Trigonometry) (panels : ℕ → AnimationPanel) (bullet : BulletAnimation) :
    ℕ → BulletAnimation
  | 0 => bullet
  | n + 1 => ((panels n).repaintBullet trig (flight trig panels bullet n)).2

/-- A bullet is on the map as long as it is not stopped, and it is stopped some time. -/
def StopsInTime (bullet : ℕ → BulletAnimation) : Prop :=
  (∀ n, (bullet n).stop = false → mapBox.intersects ((bullet n).box 10) = true) ∧
    ∃ n, (bullet n).stop = true

/-- A bullet on the map has its corner less than its size beyond the border. -/
theorem mapBox_intersects_iff (bullet : BulletAnimation) :
    mapBox.intersects (bullet.box 10) = true ↔
      bullet.x < 1248 ∧ -10 < bullet.x ∧ bullet.y < 1280 ∧ -10 < bullet.y := by
  rw [Rectangle.intersects_iff]
  simp only [mapBox, BulletAnimation.box]
  omega

/-- A bullet that touches a wall is on the map. -/
theorem BulletAnimation.mapBox_of_collisionToWall (bullet : BulletAnimation) (wall : WallObject)
    (h : bullet.collisionToWall wall = true) : mapBox.intersects (bullet.box 10) = true := by
  obtain ⟨cell, -, hcell⟩ := List.any_eq_true.mp h
  have hmeets := (Bool.and_eq_true_iff.mp hcell).2
  have hrow := cell.1.isLt
  have hcolumn := cell.2.isLt
  rw [Rectangle.intersects_iff] at hmeets
  simp only [BulletAnimation.box, wallBox, corner, wallSize] at hmeets
  rw [mapBox_intersects_iff]
  omega

/-- A bullet on the map that touches no wall is clear of the border. -/
theorem BulletAnimation.inside_of_mapBox (bullet : BulletAnimation) (wall : WallObject)
    (hborder : ∀ cell, OnBorder cell → wall.wallArray cell.1 cell.2 = '1')
    (hmeets : mapBox.intersects (bullet.box 10) = true)
    (hfree : bullet.collisionToWall wall = false) :
    32 ≤ bullet.x ∧ bullet.x ≤ 1206 ∧ 32 ≤ bullet.y ∧ bullet.y ≤ 1238 := by
  rw [mapBox_intersects_iff] at hmeets
  have hcell : ∀ cell, OnBorder cell →
      ¬(((cell.2 : ℕ) : ℤ) * 32 < bullet.x + 10 ∧ bullet.x < ((cell.2 : ℕ) : ℤ) * 32 + 32 ∧
        ((cell.1 : ℕ) : ℤ) * 32 < bullet.y + 10 ∧ bullet.y < ((cell.1 : ℕ) : ℤ) * 32 + 32) := by
    intro cell hon hmeet
    have htest := List.any_eq_false.mp hfree cell (mem_cells cell)
    rw [WallObject.isWall, hborder cell hon, Bool.and_eq_true, not_and] at htest
    refine htest rfl ?_
    rw [Rectangle.intersects_iff]
    simp only [BulletAnimation.box, wallBox, corner, wallSize]
    omega
  obtain ⟨row, hrow, hrowLow, hrowHigh⟩ : ∃ row : ℕ, row < 40 ∧
      (row : ℤ) * 32 < bullet.y + 10 ∧ bullet.y < (row : ℤ) * 32 + 32 :=
    ⟨(bullet.y / 32).toNat, by omega⟩
  obtain ⟨column, hcolumn, hcolumnLow, hcolumnHigh⟩ : ∃ column : ℕ, column < 39 ∧
      (column : ℤ) * 32 < bullet.x + 10 ∧ bullet.x < (column : ℤ) * 32 + 32 :=
    ⟨(bullet.x / 32).toNat, by omega⟩
  have hleft := hcell (⟨row, hrow⟩, ⟨0, by omega⟩) (Or.inr (Or.inr (Or.inl rfl)))
  have hright := hcell (⟨row, hrow⟩, ⟨38, by omega⟩) (Or.inr (Or.inr (Or.inr rfl)))
  have htop := hcell (⟨0, by omega⟩, ⟨column, hcolumn⟩) (Or.inl rfl)
  have hbottom := hcell (⟨39, by omega⟩, ⟨column, hcolumn⟩) (Or.inr (Or.inl rfl))
  simp only at hleft hright htop hbottom
  omega

section Moves

variable (trig : Trigonometry)

/-- A live bullet moves and is stopped by walls and tanks. -/
theorem AnimationPanel.repaintBullet_bullet (panel : AnimationPanel) (bullet : BulletAnimation)
    (hlive : bullet.stop = false) :
    (panel.repaintBullet trig bullet).2 =
      { bullet.forwardMove trig with
        stop := (bullet.forwardMove trig).collisionToWall panel.setArray.breakableWall ||
          (bullet.forwardMove trig).collisionToTank panel } := by
  rw [AnimationPanel.repaintBullet, hlive, if_neg Bool.false_ne_true]
  change ((panel.meetWall (bullet.forwardMove trig)).1.meetTank
    (panel.meetWall (bullet.forwardMove trig)).2).2 = _
  rw [AnimationPanel.meetWall]
  split
  · rename_i hwall
    rw [AnimationPanel.meetTank, hwall]
    split <;> rfl
  · rename_i hwall
    rw [AnimationPanel.meetTank, Bool.eq_false_iff.mpr hwall, Bool.false_or]
    split
    · rename_i htank
      rw [show (bullet.forwardMove trig).collisionToTank panel = true from htank]
    · rename_i htank
      rw [show (bullet.forwardMove trig).collisionToTank panel = false from
        Bool.eq_false_iff.mpr htank, ← hlive]
      rfl

/-- A stopped bullet stays stopped. -/
theorem AnimationPanel.repaintBullet_of_stop (panel : AnimationPanel) (bullet : BulletAnimation)
    (hstop : bullet.stop = true) : (panel.repaintBullet trig bullet).2 = bullet := by
  rw [AnimationPanel.repaintBullet, hstop, if_pos rfl]

variable {trig} {panels : ℕ → AnimationPanel} {bullet : BulletAnimation}

/-- A bullet in flight was in flight before, and has met nothing. -/
theorem flight_succ {n : ℕ} (h : (flight trig panels bullet (n + 1)).stop = false) :
    (flight trig panels bullet n).stop = false ∧
      flight trig panels bullet (n + 1) = (flight trig panels bullet n).forwardMove trig ∧
      (flight trig panels bullet (n + 1)).collisionToWall
        (panels n).setArray.breakableWall = false := by
  have hbefore : (flight trig panels bullet n).stop = false := by
    refine Bool.eq_false_iff.mpr fun hstop => ?_
    rw [flight, (panels n).repaintBullet_of_stop trig _ hstop] at h
    exact Bool.false_ne_true (h.symm.trans hstop)
  have hmoved := (panels n).repaintBullet_bullet trig _ hbefore
  rw [flight, hmoved, Bool.or_eq_false_iff] at h
  refine ⟨hbefore, ?_, ?_⟩
  · rw [flight, hmoved, h.1, h.2, Bool.or_false, ← hbefore]
    rfl
  · rw [flight, hmoved]
    exact h.1

/-- A bullet in flight has moved by one step in each frame. -/
theorem flight_position (n : ℕ) (h : (flight trig panels bullet n).stop = false) :
    (flight trig panels bullet n).index = bullet.index ∧
      (flight trig panels bullet n).x =
        bullet.x + n * trig.cos (angle bullet.index) bulletSpeed ∧
      (flight trig panels bullet n).y =
        bullet.y - n * trig.sin (angle bullet.index) bulletSpeed := by
  induction n with
  | zero =>
    refine ⟨rfl, ?_, ?_⟩
    · rw [Nat.cast_zero, zero_mul, add_zero, flight]
    · rw [Nat.cast_zero, zero_mul, sub_zero, flight]
  | succ n ih =>
    obtain ⟨hbefore, hmoved, -⟩ := flight_succ h
    obtain ⟨hindex, hx, hy⟩ := ih hbefore
    rw [hmoved]
    refine ⟨hindex, ?_, ?_⟩
    · change (flight trig panels bullet n).x + trig.cos (angle _) bulletSpeed = _
      rw [hindex, hx]
      push_cast
      ring
    · change (flight trig panels bullet n).y - trig.sin (angle _) bulletSpeed = _
      rw [hindex, hy]
      push_cast
      ring

/-- A bullet that is on the map in its first frame is on the map in every frame, and clear of the
border as long as it is not stopped. -/
theorem flight_inside {level : Level}
    (hborder : ∀ cell, OnBorder cell → level cell.1 cell.2 = '1')
    (hpanels : ∀ n, Grounded level (spawn level) (panels n))
    (hcos : |trig.cos (angle bullet.index) bulletSpeed| ≤ bulletSpeed)
    (hsin : |trig.sin (angle bullet.index) bulletSpeed| ≤ bulletSpeed)
    (hfirst : (flight trig panels bullet 1).stop = false →
      mapBox.intersects ((flight trig panels bullet 1).box 10) = true)
    (n : ℕ) (h : (flight trig panels bullet (n + 1)).stop = false) :
    32 ≤ (flight trig panels bullet (n + 1)).x ∧ (flight trig panels bullet (n + 1)).x ≤ 1206 ∧
      32 ≤ (flight trig panels bullet (n + 1)).y ∧ (flight trig panels bullet (n + 1)).y ≤ 1238 := by
  have hread : ∀ n cell, OnBorder cell →
      (panels n).setArray.breakableWall.wallArray cell.1 cell.2 = '1' := by
    intro n cell hon
    rw [(hpanels n).setArray]
    exact ((hpanels n).eroded.eq_iff (by decide) (by decide) cell.1 cell.2).mpr (hborder cell hon)
  induction n with
  | zero =>
    obtain ⟨-, -, hfree⟩ := flight_succ h
    exact (flight trig panels bullet 1).inside_of_mapBox _ (hread 0) (hfirst h) hfree
  | succ n ih =>
    obtain ⟨hbefore, hmoved, hfree⟩ := flight_succ h
    have hinside := ih hbefore
    obtain ⟨hindex, -, -⟩ := flight_position (n + 1) hbefore
    refine (flight trig panels bullet (n + 2)).inside_of_mapBox _ (hread (n + 1)) ?_ hfree
    rw [mapBox_intersects_iff, hmoved]
    simp only [BulletAnimation.forwardMove, hindex]
    rw [bulletSpeed] at hcos hsin ⊢
    rw [abs_le] at hcos hsin
    omega

/-- A bullet that is on the map in its first frame is stopped some time. -/
theorem flight_stops {level : Level}
    (hborder : ∀ cell, OnBorder cell → level cell.1 cell.2 = '1')
    (hpanels : ∀ n, Grounded level (spawn level) (panels n))
    (hcos : |trig.cos (angle bullet.index) bulletSpeed| ≤ bulletSpeed)
    (hsin : |trig.sin (angle bullet.index) bulletSpeed| ≤ bulletSpeed)
    (hmoves : trig.cos (angle bullet.index) bulletSpeed ≠ 0 ∨
      trig.sin (angle bullet.index) bulletSpeed ≠ 0)
    (hfirst : (flight trig panels bullet 1).stop = false →
      mapBox.intersects ((flight trig panels bullet 1).box 10) = true) :
    ∃ n, (flight trig panels bullet n).stop = true := by
  by_contra hnever
  simp only [not_exists, Bool.not_eq_true] at hnever
  have hbound : ∀ n : ℕ,
      32 ≤ bullet.x + (n + 1 : ℕ) * trig.cos (angle bullet.index) bulletSpeed ∧
        bullet.x + (n + 1 : ℕ) * trig.cos (angle bullet.index) bulletSpeed ≤ 1206 ∧
        32 ≤ bullet.y - (n + 1 : ℕ) * trig.sin (angle bullet.index) bulletSpeed ∧
        bullet.y - (n + 1 : ℕ) * trig.sin (angle bullet.index) bulletSpeed ≤ 1238 := by
    intro n
    obtain ⟨-, hx, hy⟩ := flight_position (n + 1) (hnever (n + 1))
    rw [← hx, ← hy]
    exact flight_inside hborder hpanels hcos hsin hfirst n (hnever (n + 1))
  have hstart := hbound 0
  have hend := hbound 1300
  push_cast at hstart hend
  omega

/-- On a level with a border of unbreakable walls, a bullet stays on the map and is stopped some time
exactly if it leaves the muzzle on the map, and after one step is still there or touches a tank. -/
theorem flight_stopsInTime_iff {level : Level}
    (hborder : ∀ cell, OnBorder cell → level cell.1 cell.2 = '1')
    (hpanels : ∀ n, Grounded level (spawn level) (panels n)) (tank : TankObject) (t : Tank)
    (hcos : |trig.cos (angle tank.index) bulletSpeed| ≤ bulletSpeed)
    (hsin : |trig.sin (angle tank.index) bulletSpeed| ≤ bulletSpeed)
    (hmoves : trig.cos (angle tank.index) bulletSpeed ≠ 0 ∨
      trig.sin (angle tank.index) bulletSpeed ≠ 0) :
    StopsInTime (flight trig panels (tank.shot trig t)) ↔
      mapBox.intersects ((tank.shot trig t).box 10) = true ∧
        (mapBox.intersects (((tank.shot trig t).forwardMove trig).box 10) = true ∨
          ((tank.shot trig t).forwardMove trig).collisionToTank (panels 0) = true) := by
  have hone := (panels 0).repaintBullet_bullet trig (tank.shot trig t) rfl
  constructor
  · rintro ⟨hmap, -⟩
    refine ⟨hmap 0 rfl, ?_⟩
    by_cases htank : ((tank.shot trig t).forwardMove trig).collisionToTank (panels 0) = true
    · exact Or.inr htank
    · refine Or.inl ?_
      rw [Bool.not_eq_true] at htank
      by_cases hwall : ((tank.shot trig t).forwardMove trig).collisionToWall
          (panels 0).setArray.breakableWall = true
      · exact BulletAnimation.mapBox_of_collisionToWall _ _ hwall
      · have hmeets := hmap 1
        rw [flight, flight, hone, Bool.eq_false_iff.mpr hwall, htank] at hmeets
        exact hmeets rfl
  · rintro ⟨hmuzzle, hstep⟩
    have hfirst : (flight trig panels (tank.shot trig t) 1).stop = false →
        mapBox.intersects ((flight trig panels (tank.shot trig t) 1).box 10) = true := by
      intro hlive
      rw [flight, flight, hone, Bool.or_eq_false_iff] at hlive
      rcases hstep with hmeets | htank
      · rw [flight, flight, hone]
        exact hmeets
      · exact absurd (hlive.2.symm.trans htank) Bool.false_ne_true
    refine ⟨?_, flight_stops hborder hpanels hcos hsin hmoves hfirst⟩
    intro n hlive
    cases n with
    | zero => exact hmuzzle
    | succ n =>
      have hcos' : |trig.cos (angle (tank.shot trig t).index) bulletSpeed| ≤ bulletSpeed := hcos
      have hinside := flight_inside hborder hpanels hcos' hsin hfirst n hlive
      rw [mapBox_intersects_iff]
      omega

/-- A tank that stands within the map and in no wall of its border has the muzzle on the map. -/
theorem TankObject.mapBox_shot {level : Level}
    (hborder : ∀ cell, OnBorder cell → level cell.1 cell.2 = '1') (tank : TankObject) (t : Tank)
    (hframe : tank.width = 64 ∧ tank.height = 64) (hfree : WallFree level tank.standingBox)
    (hx : 0 ≤ tank.x ∧ tank.x + 54 ≤ 1248) (hy : 0 ≤ tank.y ∧ tank.y + 54 ≤ 1280)
    (hlength : trig.cos 50 32 = 20) (hcos : |trig.cos (angle tank.index) 40| ≤ 40)
    (hsin : |trig.sin (angle tank.index) 40| ≤ 40) :
    mapBox.intersects ((tank.shot trig t).box 10) = true := by
  have hcell : ∀ cell, OnBorder cell →
      ¬(((cell.2 : ℕ) : ℤ) * 32 < tank.x + 54 ∧ tank.x < ((cell.2 : ℕ) : ℤ) * 32 + 22 ∧
        ((cell.1 : ℕ) : ℤ) * 32 < tank.y + 54 ∧ tank.y < ((cell.1 : ℕ) : ℤ) * 32 + 22) := by
    intro cell hon hmeet
    have htest := hfree cell (Or.inl (hborder cell hon))
    rw [Bool.eq_false_iff, Ne, Rectangle.intersects_iff] at htest
    refine htest ?_
    simp only [TankObject.standingBox, wallBox, corner, wallSize, tankStep]
    omega
  obtain ⟨row, hrow, hrowLow, hrowHigh⟩ : ∃ row : ℕ, row < 40 ∧
      (row : ℤ) * 32 < tank.y + 54 ∧ tank.y < (row : ℤ) * 32 + 22 :=
    ⟨((tank.y + 10) / 32).toNat, by omega⟩
  obtain ⟨column, hcolumn, hcolumnLow, hcolumnHigh⟩ : ∃ column : ℕ, column < 39 ∧
      (column : ℤ) * 32 < tank.x + 54 ∧ tank.x < (column : ℤ) * 32 + 22 :=
    ⟨((tank.x + 10) / 32).toNat, by omega⟩
  have hright := hcell (⟨row, hrow⟩, ⟨38, by omega⟩) (Or.inr (Or.inr (Or.inr rfl)))
  have hbottom := hcell (⟨39, by omega⟩, ⟨column, hcolumn⟩) (Or.inr (Or.inl rfl))
  rw [mapBox_intersects_iff]
  simp only [TankObject.shot, TankObject.fireStartX, TankObject.fireStartY, hframe.1, hframe.2,
    Int.reduceDiv, hlength, Int.reduceMul]
  rw [abs_le] at hcos hsin
  simp only at hright hbottom
  omega

end Moves

/-- The arena with the first tank at some distance from its right border. -/
def arenaAt (x : ℤ) : AnimationPanel :=
  { AnimationPanel.new arena with
    tank := fun
      | .tank1 => ⟨x, 600, x, 600, east, 64, 64⟩
      | .tank2 => ⟨224, 160, 0, 0, east, 64, 64⟩ }

/-- The arena is on its ground. -/
theorem grounded_arenaAt (x : ℤ) : Grounded arena (spawn arena) (arenaAt x) :=
  (Grounded.new arena).of_eroded rfl rfl (.refl _)

/-- A bullet fired to the east next to the right border, while nothing else happens, leaves the
map. -/
theorem not_stopsInTime_arenaAt :
    (∀ cell, OnBorder cell → arena cell.1 cell.2 = '1') ∧
      WallFree arena ((arenaAt 1160).tank .tank1).standingBox ∧
      ¬StopsInTime
        (flight eastward (fun _ => arenaAt 1160) (((arenaAt 1160).tank .tank1).shot eastward .tank1)) := by
  refine ⟨arena_border, ?_, ?_⟩
  · intro cell hcell
    have hon := arena_wall cell hcell
    rw [OnBorder] at hon
    rw [Bool.eq_false_iff, Ne, Rectangle.intersects_iff]
    simp only [wallBox, corner, wallSize, tankStep]
    change ¬(0 < 54 ∧ 0 < 54 ∧ _ ∧ _ ∧ _ < 1160 + 54 ∧ 1160 < _ ∧ _ < 600 + 54 ∧ 600 < _)
    omega
  · rintro ⟨hmap, -⟩
    let moved : BulletAnimation := ⟨.tank1, east, 1252, 632, false⟩
    have hbeyond : ¬mapBox.intersects (moved.box 10) = true := by decide
    have htank : moved.collisionToTank (arenaAt 1160) = false := by decide
    have hwall : moved.collisionToWall (arenaAt 1160).setArray.breakableWall = false :=
      Bool.eq_false_iff.mpr fun h => hbeyond (moved.mapBox_of_collisionToWall _ h)
    have hmoved : (((arenaAt 1160).tank .tank1).shot eastward .tank1).forwardMove eastward =
        moved := rfl
    have hone := (arenaAt 1160).repaintBullet_bullet eastward
      (((arenaAt 1160).tank .tank1).shot eastward .tank1) rfl
    rw [hmoved, hwall, htank, Bool.or_false] at hone
    have hmeets := hmap 1
    rw [flight, flight, hone] at hmeets
    exact hbeyond (hmeets rfl)

/-- The condition in the middle of the arena. -/
theorem flight_stopsInTime_iff_arenaAt :
    StopsInTime
        (flight eastward (fun _ => arenaAt 600) (((arenaAt 600).tank .tank1).shot eastward .tank1)) ↔
      mapBox.intersects ((((arenaAt 600).tank .tank1).shot eastward .tank1).box 10) = true ∧
        (mapBox.intersects (((((arenaAt 600).tank .tank1).shot eastward .tank1).forwardMove
            eastward).box 10) = true ∨
          ((((arenaAt 600).tank .tank1).shot eastward .tank1).forwardMove
            eastward).collisionToTank (arenaAt 600) = true) :=
  flight_stopsInTime_iff arena_border (fun _ => grounded_arenaAt 600)
    ((arenaAt 600).tank .tank1) .tank1 (by decide) (by decide) (Or.inl (by decide))

end Coursework.TankGame
