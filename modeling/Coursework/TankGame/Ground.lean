import Coursework.TankGame.KeyboardPanel

/-!
# The ground of the tank game

Bullets wear the map down: breakable walls disappear, and nothing else changes. A tank is
therefore always put back to the place where it started.
-/

namespace Coursework.TankGame

open Java

/-- The later map is the earlier one without some of its breakable walls. -/
def Eroded (before after : Level) : Prop :=
  ∀ row column, after row column = before row column ∨
    before row column = '2' ∧ after row column = ' '

/-- A map is worn down by nothing. -/
theorem Eroded.refl (level : Level) : Eroded level level :=
  fun _ _ => Or.inl rfl

/-- A map worn down twice is worn down. -/
theorem Eroded.trans {first second third : Level} (h : Eroded first second)
    (h' : Eroded second third) : Eroded first third := by
  intro row column
  rcases h' row column with hsame | ⟨hwall, hgone⟩
  · rw [hsame]
    exact h row column
  · rcases h row column with hsame' | ⟨-, hgone'⟩
    · exact Or.inr ⟨hsame' ▸ hwall, hgone⟩
    · rw [hgone'] at hwall
      exact absurd hwall (by decide)

/-- The cells of another character than those of breakable walls and of free ground stay. -/
theorem Eroded.eq_iff {before after : Level} (h : Eroded before after) {character : Char}
    (hwall : character ≠ '2') (hfree : character ≠ ' ') (row : Fin 40) (column : Fin 39) :
    after row column = character ↔ before row column = character := by
  rcases h row column with hsame | ⟨hbefore, hafter⟩
  · rw [hsame]
  · rw [hbefore, hafter]
    exact iff_of_false hfree.symm hwall.symm

/-- A bullet wears the map down. -/
theorem BulletAnimation.eroded_attackWall (bullet : BulletAnimation) (wall : WallObject) :
    Eroded wall.wallArray (bullet.attackWall wall).wallArray := by
  intro row column
  change (if _ then ' ' else _) = _ ∨ _ ∧ (if _ then ' ' else _) = _
  split
  · rename_i h
    rw [Bool.and_eq_true, beq_iff_eq] at h
    exact Or.inr ⟨h.1, rfl⟩
  · exact Or.inl rfl

/-- A scan for the last entry finds one whatever was found before, or nothing at all. -/
theorem foldl_ite_const_or_id {α β : Type*} (p : α → Bool) (f : α → β) (entries : List α) :
    (∃ place, ∀ start : β,
      entries.foldl (fun found entry => if p entry then f entry else found) start = place) ∨
    ∀ start : β,
      entries.foldl (fun found entry => if p entry then f entry else found) start = start := by
  induction entries with
  | nil => exact Or.inr fun _ => rfl
  | cons first rest ih =>
    rcases ih with ⟨place, hplace⟩ | hnothing
    · exact Or.inl ⟨place, fun start => hplace _⟩
    · by_cases hfirst : p first = true
      · refine Or.inl ⟨f first, ?_⟩
        intro start
        rw [List.foldl_cons, hnothing, if_pos hfirst]
      · refine Or.inr ?_
        intro start
        rw [List.foldl_cons, hnothing, if_neg hfirst]

/-- A player who is put back is put back to the same place again. -/
theorem Players.initPosition_idem (player : Players) (wall : WallObject) :
    Players.initPosition { player with
      tankX := (player.initPosition wall).1
      tankY := (player.initPosition wall).2 } wall = player.initPosition wall := by
  change cells.foldl _ (player.initPosition wall) = player.initPosition wall
  rw [Players.initPosition]
  rcases foldl_ite_const_or_id
    (fun cell : Fin 40 × Fin 39 => wall.wallArray cell.1 cell.2 == player.tankPosition) corner
    cells with ⟨place, hplace⟩ | hnothing
  · rw [hplace, hplace]
  · rw [hnothing, hnothing]

/-- The starting place depends on the cells with the character of the player only. -/
theorem Players.initPosition_eroded (player : Players) {before after : WallObject}
    (h : Eroded before.wallArray after.wallArray) (hwall : player.tankPosition ≠ '2')
    (hfree : player.tankPosition ≠ ' ') :
    player.initPosition after = player.initPosition before := by
  rw [Players.initPosition, Players.initPosition]
  congr 1
  funext found cell
  refine if_congr ?_ rfl rfl
  rw [beq_iff_eq, beq_iff_eq]
  exact h.eq_iff hwall hfree cell.1 cell.2

/-- The corner of a tank as play starts. -/
def spawn (level : Level) (t : Tank) : ℤ × ℤ :=
  (((AnimationPanel.new level).tank t).x, ((AnimationPanel.new level).tank t).y)

/-- The map of the panel is worn down from an earlier one, and the players are always put back to
the same places. -/
structure Grounded (earlier : Level) (places : Tank → ℤ × ℤ) (panel : AnimationPanel) :
    Prop where
  source : panel.breakableWall.source = []
  eroded : Eroded earlier panel.breakableWall.wallArray
  ne_wall : ∀ t, (panel.player t).tankPosition ≠ '2'
  ne_free : ∀ t, (panel.player t).tankPosition ≠ ' '
  place : ∀ t, (panel.player t).initPosition panel.breakableWall = places t

variable {earlier : Level} {places : Tank → ℤ × ℤ} {panel : AnimationPanel}

/-- A panel is on the ground of its own map. -/
theorem Grounded.rebase (h : Grounded earlier places panel) :
    Grounded panel.breakableWall.wallArray places panel :=
  ⟨h.source, .refl _, h.ne_wall, h.ne_free, h.place⟩

/-- Reading the level again changes nothing. -/
theorem Grounded.setArray (h : Grounded earlier places panel) :
    panel.setArray.breakableWall.wallArray = panel.breakableWall.wallArray :=
  panel.breakableWall.setArray_wallArray h.source

/-- The ground depends on the players and the map only, and the map may be worn down. -/
theorem Grounded.of_eroded {next : AnimationPanel} (h : Grounded earlier places panel)
    (hplayer : next.player = panel.player) (hsource : next.breakableWall.source = [])
    (heroded : Eroded panel.breakableWall.wallArray next.breakableWall.wallArray) :
    Grounded earlier places next where
  source := hsource
  eroded := h.eroded.trans heroded
  ne_wall := by
    rw [hplayer]
    exact h.ne_wall
  ne_free := by
    rw [hplayer]
    exact h.ne_free
  place := by
    intro t
    rw [hplayer, Players.initPosition_eroded _ heroded (h.ne_wall t) (h.ne_free t)]
    exact h.place t

/-- A player may change, but not the place to be put back to. -/
theorem Grounded.setPlayer (h : Grounded earlier places panel)
    (t : Tank) (player : Players) (hposition : player.tankPosition = (panel.player t).tankPosition)
    (hplace : player.initPosition panel.breakableWall = places t) :
    Grounded earlier places (panel.setPlayer t player) where
  source := h.source
  eroded := h.eroded
  ne_wall := by
    intro u
    obtain rfl | rfl := t.eq_or_eq_other u
    · rw [AnimationPanel.setPlayer_player_self, hposition]
      exact h.ne_wall u
    · rw [AnimationPanel.setPlayer_player_other]
      exact h.ne_wall _
  ne_free := by
    intro u
    obtain rfl | rfl := t.eq_or_eq_other u
    · rw [AnimationPanel.setPlayer_player_self, hposition]
      exact h.ne_free u
    · rw [AnimationPanel.setPlayer_player_other]
      exact h.ne_free _
  place := by
    intro u
    obtain rfl | rfl := t.eq_or_eq_other u
    · rw [AnimationPanel.setPlayer_player_self]
      exact hplace
    · rw [AnimationPanel.setPlayer_player_other]
      exact h.place _

/-- A tank is put where its player starts. -/
theorem AnimationPanel.setInitPosition_tank (panel : AnimationPanel) (t : Tank) :
    (panel.setInitPosition t).tank = Function.update panel.tank t { panel.tank t with
      x := ((panel.player t).initPosition panel.breakableWall).1
      y := ((panel.player t).initPosition panel.breakableWall).2 } :=
  rfl

/-- A player who is put back stays on the ground. -/
theorem Grounded.setInitPosition (h : Grounded earlier places panel) (t : Tank) :
    Grounded earlier places (panel.setInitPosition t) := by
  have hplaced := h.setPlayer t { panel.player t with
    tankX := ((panel.player t).initPosition panel.breakableWall).1
    tankY := ((panel.player t).initPosition panel.breakableWall).2 } rfl
    (((panel.player t).initPosition_idem panel.breakableWall).trans (h.place t))
  exact hplaced.of_eroded rfl h.source (.refl _)

/-- The panel as a tank without health is about to be put back is on the ground. -/
theorem Grounded.explosion (h : Grounded earlier places panel)
    (t : Tank) :
    Grounded earlier places (((panel.setPlayer t (panel.player t).hitTank).setPlayer t.other
      ((panel.setPlayer t (panel.player t).hitTank).player t.other).earnPoint).explosion t) := by
  have hstruck := h.setPlayer t (panel.player t).hitTank rfl (h.place t)
  have hawarded := hstruck.setPlayer t.other
    ((panel.setPlayer t (panel.player t).hitTank).player t.other).earnPoint rfl
    (hstruck.place t.other)
  exact hawarded.of_eroded rfl h.source (.refl _)

/-- A hit stays on the ground. -/
theorem Grounded.hit (h : Grounded earlier places panel)
    (t : Tank) : Grounded earlier places (panel.hit t) := by
  rw [AnimationPanel.hit]
  split
  · exact ((h.explosion t).setInitPosition t).of_eroded rfl h.source (.refl _)
  · exact h.setPlayer t (panel.player t).hitTank rfl (h.place t)

/-- A hit on a tank leaves the walls alone. -/
theorem AnimationPanel.hit_breakableWall (panel : AnimationPanel) (t : Tank) :
    (panel.hit t).breakableWall = panel.breakableWall := by
  rw [AnimationPanel.hit]
  split <;> rfl

/-- A hit that leaves no health puts the tank back, and no other hit moves anything. -/
theorem Grounded.hit_tank (h : Grounded earlier places panel)
    (t : Tank) :
    (panel.hit t).tank =
      if (panel.player t).hitTank.die then
        Function.update panel.tank t
          ⟨(places t).1, (places t).2, (panel.tank t).nextX, (panel.tank t).nextY, east,
            (panel.tank t).width, (panel.tank t).height⟩
      else panel.tank := by
  have hplace := (h.explosion t).place t
  rw [AnimationPanel.hit, AnimationPanel.setPlayer_player_self]
  split
  · rw [AnimationPanel.setTank, AnimationPanel.setInitPosition_tank, hplace, Function.update_self,
      Function.update_idem]
    rfl
  · rfl

/-- The wall test of a bullet wears the map down. -/
theorem Grounded.meetWall (h : Grounded earlier places panel)
    (bullet : BulletAnimation) :
    (panel.meetWall bullet).1.breakableWall.source = [] ∧
      Eroded panel.breakableWall.wallArray (panel.meetWall bullet).1.breakableWall.wallArray := by
  rw [AnimationPanel.meetWall]
  split
  · refine ⟨rfl, ?_⟩
    have heroded := bullet.eroded_attackWall panel.setArray.setArray.breakableWall
    have hread : panel.setArray.setArray.breakableWall.wallArray = panel.breakableWall.wallArray :=
      (panel.setArray.breakableWall.setArray_wallArray rfl).trans h.setArray
    rw [hread] at heroded
    exact heroded
  · refine ⟨rfl, ?_⟩
    rw [h.setArray]
    exact .refl _

/-- A move reads the level again, and leaves the tank where it is, or takes it to its next place
without a collision. -/
theorem AnimationPanel.move_eq (panel : AnimationPanel) (t : Tank)
    (next : TankObject → TankObject) :
    ∃ tank, panel.move t next = (panel.setTank t tank).setArray ∧
      (tank = next (panel.tank t) ∨
        (next (panel.tank t)).collisionToWall panel.breakableWall.setArray = false ∧
        (next (panel.tank t)).collisionToTank (panel.tank t.other) = false ∧
        tank = { next (panel.tank t) with
          x := (next (panel.tank t)).nextX
          y := (next (panel.tank t)).nextY }) := by
  rw [AnimationPanel.move]
  split
  · exact ⟨_, rfl, Or.inl rfl⟩
  · rename_i h
    rw [Bool.not_eq_true, Bool.or_eq_false_iff] at h
    refine ⟨_, ?_, Or.inr ⟨h.1, h.2, rfl⟩⟩
    simp only [AnimationPanel.setTank, AnimationPanel.setArray, Function.update_idem]

/-- A move stays on the ground. -/
theorem Grounded.move (h : Grounded earlier places panel) (t : Tank)
    (next : TankObject → TankObject) : Grounded earlier places (panel.move t next) := by
  obtain ⟨tank, hmove, -⟩ := panel.move_eq t next
  rw [hmove]
  refine h.of_eroded rfl rfl ?_
  change Eroded _ panel.breakableWall.setArray.wallArray
  rw [panel.breakableWall.setArray_wallArray h.source]
  exact .refl _

/-- Painted players have the place to be put back to that they had. -/
theorem Players.paint_position (player : Players) :
    player.paintHealth.paintLives.tankPosition = player.tankPosition ∧
      player.paintHealth.paintLives.tankX = player.tankX ∧
      player.paintHealth.paintLives.tankY = player.tankY := by
  have hlives : ∀ painted : Players, painted.paintLives.tankPosition = painted.tankPosition ∧
      painted.paintLives.tankX = painted.tankX ∧ painted.paintLives.tankY = painted.tankY := by
    intro painted
    rw [Players.paintLives]
    split <;> exact ⟨rfl, rfl, rfl⟩
  obtain ⟨hposition, hX, hY⟩ := hlives player.paintHealth
  rw [hposition, hX, hY, Players.paintHealth]
  split_ifs <;> exact ⟨rfl, rfl, rfl⟩

/-- Painted players stay on the ground. -/
theorem Grounded.paint (h : Grounded earlier places panel) :
    Grounded earlier places
      { panel with player := fun t => (panel.player t).paintHealth.paintLives } where
  source := h.source
  eroded := h.eroded
  ne_wall := by
    intro t
    exact (panel.player t).paint_position.1 ▸ h.ne_wall t
  ne_free := by
    intro t
    exact (panel.player t).paint_position.1 ▸ h.ne_free t
  place := by
    intro t
    obtain ⟨hposition, hX, hY⟩ := (panel.player t).paint_position
    refine Eq.trans ?_ (h.place t)
    simp only [Players.initPosition, hposition, hX, hY]

/-- Play starts on the ground. -/
theorem Grounded.new (level : Level) :
    Grounded level (spawn level) (AnimationPanel.new level) where
  source := rfl
  eroded := by
    rw [show (AnimationPanel.new level).breakableWall = (WallObject.new level).setArray from rfl,
      WallObject.setArray_new_wallArray]
    exact .refl level
  ne_wall := by
    intro t
    cases t with
    | tank1 => exact (by decide : '3' ≠ '2')
    | tank2 => exact (by decide : '4' ≠ '2')
  ne_free := by
    intro t
    cases t with
    | tank1 => exact (by decide : '3' ≠ ' ')
    | tank2 => exact (by decide : '4' ≠ ' ')
  place := by
    intro t
    cases t with
    | tank1 =>
      exact (Players.new '3').initPosition_idem (WallObject.new level).setArray
    | tank2 =>
      exact (Players.new '4').initPosition_idem (WallObject.new level).setArray

/-- Every event stays on the ground. -/
theorem Grounded.kept (trig : Trigonometry) (earlier : Level) (places : Tank → ℤ × ℤ) :
    Kept trig (Grounded earlier places) where
  setKey := fun _ _ _ _ h => h.of_eroded rfl h.source (.refl _)
  animations := fun _ _ h => h.of_eroded rfl h.source (.refl _)
  rotateLeft := fun _ _ h => h.of_eroded rfl h.source (.refl _)
  rotateRight := fun _ _ h => h.of_eroded rfl h.source (.refl _)
  forwardMove := fun _ t h => h.move t _
  reverseMove := fun _ t h => h.move t _
  meetWall := by
    intro panel bullet h
    refine h.of_eroded ?_ (h.meetWall bullet).1 (h.meetWall bullet).2
    rw [AnimationPanel.meetWall]
    split <;> rfl
  hit := fun _ t h => h.hit t
  paint := fun _ h => h.paint

end Coursework.TankGame
