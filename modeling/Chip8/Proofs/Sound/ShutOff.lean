import Chip8.Window.Event

/-!
# When the tone is shut off

The shut-off of a tone takes two steps. When the timer goes off, an event is queued; when the event
is handled, the tone stops. Setting the timer anew replaces one that is still running, but it takes
no event out of the queue, and the event does not tell which timer it comes from. So a tone that is
sounded again while an event is queued is shut off by that event, before its time. Where no event is
queued the tone lasts as long as its timer runs.

What is behind the speaker is modelled by `Hardware`: it does what the calls of the speaker ask for.
The moves of a `Scene` are those that there are, in any order: the tone is sounded, the timer goes
off, an event is handled.

## Main definitions

* `Hardware` — whether the tone plays, whether the timer runs, how many events are queued
* `Scene.run` — a speaker on its hardware, after some moves

## Main result

* `Scene.plays_while_timer_runs` — when a tone plays as long as its timer runs
-/

namespace Chip8

/-! ### The hardware -/

/-- What is behind a speaker. -/
structure Hardware where
  /-- Whether the sound is being played. -/
  playing : Bool
  /-- Whether the shut-off timer runs. -/
  timed : Bool
  /-- The number of shut-off events that were not handled yet. -/
  queued : Nat
  deriving DecidableEq, Repr

namespace Hardware

/-- Silence. -/
def quiet : Hardware := ⟨false, false, 0⟩

/-- The hardware after a call. There is one timer, and setting it leaves the queue alone. -/
def obey (h : Hardware) : HostCall → Hardware
  | .play _ => { h with playing := true }
  | .stop => { h with playing := false }
  | .timer _ _ => { h with timed := true }
  | .prepare _ _ _ _ | .sound _ | .volume _ => h

end Hardware

/-! ### Scenes -/

/-- What happens to a speaker. -/
inductive Scene.Move where
  /-- The tone is sounded. -/
  | sound
  /-- The timer goes off, if it runs. -/
  | expire
  /-- An event is handled, if one is queued. -/
  | handle
  deriving DecidableEq, Repr

/-- A speaker among the controls of a window, and its hardware. -/
structure Scene where
  controls : Window.Controls
  hardware : Hardware

namespace Scene

/-- The scene after the controls have changed. The hardware obeys the calls that were made. -/
def change (s : Scene) (c : Window.Controls) : Scene where
  controls := c
  hardware := (c.speaker.calls.toList.drop s.controls.speaker.calls.size).foldl
    Hardware.obey s.hardware

/-- The scene after a move. -/
def move (s : Scene) : Move → Scene
  | .sound =>
    s.change { s.controls with speaker := (Sounder.beep s.controls.speaker).device }
  | .expire =>
    if s.hardware.timed then
      { s with hardware :=
        { s.hardware with timed := false, queued := s.hardware.queued + 1 } }
    else s
  | .handle =>
    if s.hardware.queued = 0 then s
    else
      Scene.change { s with hardware := { s.hardware with queued := s.hardware.queued - 1 } }
        (Window.Event.toneOver.apply s.controls)

/-- The scene after some moves. -/
def run (s : Scene) (moves : List Move) : Scene := moves.foldl move s

/-- A speaker that was just made. -/
def opening (speaker : Speaker) : Scene := ⟨⟨.initial, speaker⟩, .quiet⟩

/-- Whether the speaker has a tone, and knows if it plays. -/
def Consistent (s : Scene) : Prop :=
  ∃ t, s.controls.speaker.tone = some t ∧ s.hardware.playing = t.playing

variable {s : Scene}

theorem consistent_opening {format : AudioFormat} {settings : ToneSettings} {speaker : Speaker}
    (h : Speaker.create (some format) settings = .ok speaker) : (opening speaker).Consistent := by
  cases hd : Speaker.duration settings.seconds with
  | error e =>
    have he : Speaker.create (some format) settings = .error (.quantity e) := by
      rw [Speaker.create, hd]
      rfl
    rw [he] at h
    contradiction
  | ok duration =>
    cases hw : SquareWave.create (.whole format.rate) settings.pitch format.channels
        SquareWave.defaultAmplitude with
    | error e =>
      have he : Speaker.create (some format) settings = .error e := by
        rw [Speaker.create, hd, hw]
        rfl
      rw [he] at h
      contradiction
    | ok wave =>
      have hmade : Speaker.create (some format) settings =
          .ok ⟨some ⟨duration, false⟩, #[.sound wave.length, .volume settings.volume]⟩ := by
        rw [Speaker.create, hd, hw]
        rfl
      obtain rfl := Except.ok.inj (hmade.symm.trans h)
      exact ⟨_, rfl, rfl⟩

/-! ### One move -/

/-- A tone that is sounded plays, and its timer runs. -/
theorem Consistent.sound (h : s.Consistent) :
    (s.move .sound).Consistent ∧ (s.move .sound).hardware = ⟨true, true, s.hardware.queued⟩ := by
  obtain ⟨t, ht, hp⟩ := h
  have hbeep : (Sounder.beep s.controls.speaker).device = s.controls.speaker.beep := rfl
  have hhardware : (s.move .sound).hardware = ⟨true, true, s.hardware.queued⟩ := by
    simp only [move, change, hbeep, Speaker.beep, ht]
    cases hplaying : t.playing with
    | true =>
      rw [hplaying] at hp
      simp [Hardware.obey, hp]
    | false => simp [Hardware.obey]
  refine ⟨⟨{ t with playing := true }, ?_, ?_⟩, hhardware⟩
  · simp only [move, change, hbeep, Speaker.beep, ht]
  · rw [hhardware]

/-- An event that is handled stops the tone. -/
theorem Consistent.handle (h : s.Consistent) (hq : s.hardware.queued ≠ 0) :
    (s.move .handle).Consistent ∧
      (s.move .handle).hardware = ⟨false, s.hardware.timed, s.hardware.queued - 1⟩ := by
  obtain ⟨t, ht, -⟩ := h
  have hhardware :
      (s.move .handle).hardware = ⟨false, s.hardware.timed, s.hardware.queued - 1⟩ := by
    simp [move, hq, change, Window.Event.apply, Speaker.silence, ht, Hardware.obey]
  refine ⟨⟨{ t with playing := false }, ?_, ?_⟩, hhardware⟩
  · simp only [move, if_neg hq, change, Window.Event.apply, Speaker.silence, ht]
  · rw [hhardware]

theorem move_handle_of_empty (hq : s.hardware.queued = 0) : s.move .handle = s := by
  rw [move, if_pos hq]

theorem move_expire_of_timed (ht : s.hardware.timed = true) :
    s.move .expire = { s with hardware :=
      { s.hardware with timed := false, queued := s.hardware.queued + 1 } } := by
  rw [move, if_pos ht]

theorem move_expire_of_not_timed (ht : s.hardware.timed = false) : s.move .expire = s := by
  simp [move, ht]

theorem Consistent.move (h : s.Consistent) (x : Move) : (s.move x).Consistent := by
  cases x with
  | sound => exact h.sound.1
  | expire =>
    cases ht : s.hardware.timed with
    | true => rw [move_expire_of_timed ht]; exact h
    | false => rw [move_expire_of_not_timed ht]; exact h
  | handle =>
    by_cases hq : s.hardware.queued = 0
    · rw [move_handle_of_empty hq]
      exact h
    · exact (h.handle hq).1

/-! ### Any number of moves -/

theorem Consistent.run (h : s.Consistent) (moves : List Move) : (s.run moves).Consistent := by
  induction moves generalizing s with
  | nil => exact h
  | cons x moves ih => exact ih (h.move x)

/-- A timer that was set does not run any more once it went off, so as long as it runs the queue
gets no longer. The tone plays until an event is handled, if there is any. -/
theorem Consistent.playing_run (h : s.Consistent) {moves : List Move} (hm : .sound ∉ moves)
    (ht : (s.run moves).hardware.timed = true) :
    s.hardware.timed = true ∧
      ((s.run moves).hardware.playing = true ↔
        s.hardware.playing = true ∧ (s.hardware.queued = 0 ∨ .handle ∉ moves)) := by
  -- From the front: a timer that goes off is not set again, against the timer running at the end.
  induction moves generalizing s with
  | nil => exact ⟨ht, by simp [Scene.run]⟩
  | cons x moves ih =>
    have hrest : .sound ∉ moves := fun hin => hm (List.mem_cons_of_mem x hin)
    obtain ⟨htimed, hplaying⟩ := ih (h.move x) hrest ht
    have hrun : s.run (x :: moves) = (s.move x).run moves := rfl
    rw [hrun, hplaying]
    cases x with
    | sound => exact absurd List.mem_cons_self hm
    | expire =>
      cases hs : s.hardware.timed with
      | true => simp [move_expire_of_timed hs] at htimed
      | false => simp [move_expire_of_not_timed hs, hs] at htimed
    | handle =>
      by_cases hq : s.hardware.queued = 0
      · rw [move_handle_of_empty hq] at htimed ⊢
        exact ⟨htimed, by simp [hq]⟩
      · rw [(h.handle hq).2] at htimed ⊢
        exact ⟨htimed, by simp [hq]⟩

/-- After the latest time that the tone was sounded, while the timer that was set then runs: the
tone plays unless an event was queued at that time and one was handled since. -/
theorem plays_while_timer_runs {format : AudioFormat} {settings : ToneSettings} {speaker : Speaker}
    (hs : Speaker.create (some format) settings = .ok speaker) (before since : List Move)
    (hm : .sound ∉ since)
    (ht : ((opening speaker).run (before ++ .sound :: since)).hardware.timed = true) :
    ((opening speaker).run (before ++ .sound :: since)).hardware.playing = true ↔
      ((opening speaker).run before).hardware.queued = 0 ∨ .handle ∉ since := by
  have hbefore := (consistent_opening hs).run before
  have hrun : (opening speaker).run (before ++ .sound :: since) =
      (((opening speaker).run before).move .sound).run since := by
    rw [Scene.run, List.foldl_append]
    rfl
  obtain ⟨hsounding, hhardware⟩ := hbefore.sound
  rw [hrun] at ht ⊢
  rw [(hsounding.playing_run hm ht).2, hhardware]
  simp

/-- The event of the first tone is handled before the tone is sounded again. -/
theorem plays_once_queue_is_empty :
    ∃ speaker, Speaker.create (some .preferred) .standard = .ok speaker ∧
      ((opening speaker).run [.sound, .expire, .handle, .sound]).hardware.playing = true := by
  obtain ⟨speaker, hs⟩ : ∃ speaker, Speaker.create (some .preferred) .standard = .ok speaker :=
    ⟨_, rfl⟩
  obtain ⟨ht, hq⟩ :
      ((opening speaker).run ([.sound, .expire, .handle] ++ .sound :: [])).hardware.timed = true ∧
      ((opening speaker).run [.sound, .expire, .handle]).hardware.queued = 0 := by
    obtain rfl := Except.ok.inj hs
    decide +kernel
  exact ⟨speaker, hs, (plays_while_timer_runs hs _ [] (by simp) ht).mpr (.inl hq)⟩

/-- The event of the first tone is handled after the tone was sounded again. The second tone stops
while its timer runs. -/
theorem cut_by_earlier_event :
    ∃ speaker, Speaker.create (some .preferred) .standard = .ok speaker ∧
      ((opening speaker).run [.sound, .expire, .sound, .handle]).hardware.timed = true ∧
      ((opening speaker).run [.sound, .expire, .sound, .handle]).hardware.playing = false := by
  refine ⟨_, rfl, ?_⟩
  decide +kernel

end Scene

end Chip8
