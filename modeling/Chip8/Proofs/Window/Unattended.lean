import Chip8.CommandLine.Run
import Chip8.Proofs.Window.Canvas
import Chip8.Proofs.Window.Raster

/-!
# Windows that nobody plays in

A program can be run in a window and without one. If no key of the keypad is pressed, it makes no
difference: the machine in the window goes through the same cycles as the machine without a window,
and what is painted is its screen. Into how many cycles at a time the pacer cuts the run does not
matter, and neither do the other events. Events that let keys go, that shut off the tone or that
mean nothing may come at any time.

Both machines are compared by the bare machine in them. What a session adds to it, frame by frame,
is `granted`: the numbers of cycles that the pacer gives, which depend on the clock only.

All this is said of any window system. The closed facts at the end use the one in memory.

## Main definitions

* `Event.pressed?` — the key of the keypad that an event presses
* `granted` — the cycles of each frame
* `Unattended` — a machine in a window that nobody plays in

## Main results

* `Session.run_unattended` — a session, in terms of the bare machine
* `run_eq_headless` — with a window and without one
-/

namespace Chip8

namespace Window

open CommandLine (headlessMachine HeadlessMachine)

/-! ### Events -/

/-- The key of the keypad that an event presses. -/
def Event.pressed? : Event → Option Key
  | keyDown code => keyOfCode? code
  | _ => none

theorem release_initial (k : Key) : Keypad.initial.release k = .initial := by
  simp [Keypad.release, Keypad.initial]

/-- Keys that are up stay up until one is pressed. -/
theorem keypad_apply {e : Event} {c : Controls} (he : e.pressed? = none)
    (hc : c.keypad = .initial) : (e.apply c).keypad = .initial := by
  cases e with
  | keyDown code =>
    have hcode : keyOfCode? code = none := he
    simp only [Event.apply, hcode]
    exact hc
  | keyUp code =>
    cases hcode : keyOfCode? code with
    | none =>
      simp only [Event.apply, hcode]
      exact hc
    | some k =>
      simp only [Event.apply, hcode, hc]
      exact release_initial k
  | quit | toneOver | other => exact hc

theorem keypad_foldl_apply {events : List Event} {c : Controls}
    (he : ∀ e ∈ events, e.pressed? = none) (hc : c.keypad = .initial) :
    (events.foldl (fun c e => e.apply c) c).keypad = .initial := by
  induction events generalizing c with
  | nil => exact hc
  | cons e events ih =>
    refine ih (fun e' h' => he e' (List.mem_cons_of_mem e h')) ?_
    exact keypad_apply (he e List.mem_cons_self) hc

/-- The request to quit at the end presses no key. -/
theorem pressed?_allFrames {script : Script}
    (h : ∀ f ∈ script.frames, ∀ e ∈ f.events, e.pressed? = none) :
    ∀ f ∈ script.allFrames, ∀ e ∈ f.events, e.pressed? = none := by
  intro f hf e he
  obtain hf | hf := List.mem_append.mp hf
  · exact h f hf e he
  · obtain rfl := List.mem_singleton.mp hf
    obtain rfl := List.mem_singleton.mp he
    rfl

/-- To a program, a keypad with all keys up is no keypad at all. -/
theorem keyView_initial : keyView Keypad.initial = keyView NoKeys.mk := by
  have hdown : Keypad.initial.isDown = fun _ => false := by
    funext k
    simp [Keypad.isDown, Keypad.initial]
  have hreleased : Keypad.initial.wasReleased = fun _ => false := by
    funext k
    simp [Keypad.wasReleased, Keypad.released, Keypad.initial]
  change KeyView.mk Keypad.initial.isDown Keypad.initial.wasReleased = _
  rw [hdown, hreleased]
  rfl

theorem reliable_speaker (b : Speaker) : Reliable b := fun _ => rfl

/-! ### What the pacer gives -/

/-- The numbers of cycles that a pacer gives for frames, up to the first in which the user quits. -/
def granted : List Frame → Quantity → Pacer → Except Failure (List Nat)
  | [], _, _ => .ok []
  | f :: fs, clock, pacer =>
    match (f.clock.getD clock).sub clock with
    | .error e => .error (.quantity e)
    | .ok elapsed =>
      match Pacer.advance elapsed pacer with
      | .error e _ => .error (.quantity e)
      | .ok n pacer =>
        if f.events.any Event.isQuit then .ok [n.toNat]
        else
          match granted fs (f.clock.getD clock) pacer with
          | .error e => .error e
          | .ok ns => .ok (n.toNat :: ns)

/-- The first of the numbers that are given, and the others. -/
theorem granted_cons {f : Frame} {fs : List Frame} {clock : Quantity} {pacer : Pacer}
    {counts : List Nat} (h : granted (f :: fs) clock pacer = .ok counts) :
    ∃ elapsed n p ns, (f.clock.getD clock).sub clock = .ok elapsed ∧
      Pacer.advance elapsed pacer = .ok n p ∧ counts = n.toNat :: ns ∧
      if f.events.any Event.isQuit then ns = []
      else granted fs (f.clock.getD clock) p = .ok ns := by
  rw [granted] at h
  split at h
  · contradiction
  · next elapsed ht =>
    split at h
    · contradiction
    · next n p hp =>
      split at h
      · next hq => exact ⟨elapsed, n, p, [], ht, hp, (Except.ok.inj h).symm, by rw [if_pos hq]⟩
      · next hq =>
        split at h
        · contradiction
        · next ns hns =>
          exact ⟨elapsed, n, p, ns, ht, hp, (Except.ok.inj h).symm, by rw [if_neg hq]; exact hns⟩

theorem granted_ne_nil {fs : List Frame} {clock : Quantity} {pacer : Pacer} {counts : List Nat}
    (hfs : fs ≠ []) (h : granted fs clock pacer = .ok counts) : counts ≠ [] := by
  cases fs with
  | nil => exact absurd rfl hfs
  | cons f fs =>
    obtain ⟨elapsed, n, p, ns, -, -, rfl, -⟩ := granted_cons h
    exact List.cons_ne_nil _ _

/-! ### Machines that nobody plays with -/

section AnySystem

variable [WindowSystem]

/-- A machine in a window, with all keys up and its screen painted in two colours. -/
structure Unattended (foreground background : Colour) (m : WindowMachine) : Prop where
  calm : m.Calm
  system : Dependable foreground background
  keys : m.keys = .initial
  display : m.display.Shows foreground background m.screen

namespace Unattended

variable {foreground background : Colour} {m : WindowMachine}

/-- Whatever the speaker does, nobody plays. -/
theorem withSounder (h : Unattended foreground background m) (b : Speaker) :
    Unattended foreground background { m with sounder := b } :=
  ⟨⟨h.calm.intact, h.calm.display, reliable_speaker b⟩, h.system, h.keys, h.display⟩

theorem cycle (h : Unattended foreground background m) :
    Unattended foreground background (Machine.after Machine.cycle m) := by
  have hkeys : (Machine.after Machine.cycle m).keys = m.keys := Machine.keepsKeys_cycle m
  refine ⟨h.calm.cycle, h.system, hkeys.trans h.keys, ?_⟩
  obtain hv | ⟨s, hv⟩ := Machine.video_after_cycle h.calm.intact
  · rw [Machine.display, Machine.screen, hv]
    exact h.display
  · obtain ⟨c, hpresent, hc⟩ := h.display.present h.system s
    rw [Machine.display, Machine.screen, hv, hpresent]
    exact hc

theorem run (h : Unattended foreground background m) (n : Nat) :
    Unattended foreground background (Machine.after (Machine.run n) m) :=
  Machine.run_induction (P := Unattended foreground background) (fun _ => cycle) n h

/-- Closing the input frame does nothing to keys that are up. -/
theorem withKeys_closeFrame (h : Unattended foreground background m) :
    m.withKeys m.keys.closeFrame = m := by
  have hclosed : m.keys.closeFrame = m.keys := by
    rw [h.keys]
    rfl
  rw [hclosed]
  rfl

end Unattended

/-! ### Frames -/

namespace Session

variable {foreground background : Colour} {s : Session} {f : Frame}

/-- Events that press no key change the speaker at most. -/
theorem handle_unattended (h : Unattended foreground background s.machine)
    (he : ∀ e ∈ f.events, e.pressed? = none) :
    ∃ b : Speaker, s.handle f.events =
      { s with paced := ⟨{ s.machine with sounder := b }, s.paced.pacer⟩ } := by
  have hk : (f.events.foldl (fun c e => e.apply c) s.controls).keypad = s.machine.keys := by
    rw [keypad_foldl_apply he h.keys, h.keys]
  refine ⟨(f.events.foldl (fun c e => e.apply c) s.controls).speaker, ?_⟩
  rw [handle, withControls, hk]
  rfl

/-- A frame, if the window shows every picture. -/
theorem frame_eq (f : Frame) (s : Session) :
    frame none f s =
      match cycles (f.clock.getD s.clock) (s.handle f.events) with
      | .ok _ s' => .ok ⟨⟩ { s' with shown := s'.shown + 1 }
      | .error e s' => .error e s' := by
  have hclock : (s.handle f.events).clock = s.clock := rfl
  rw [← hclock]
  simp only [frame, bind, EStateM.bind, modify, modifyGet, MonadStateOf.modifyGet,
    EStateM.modifyGet, get, getThe, MonadStateOf.get, EStateM.get]
  cases cycles (f.clock.getD (s.handle f.events).clock) (s.handle f.events) <;> rfl

/-- A frame of a session that nobody plays in runs the cycles that the pacer gives. -/
theorem frame_unattended (h : Unattended foreground background s.machine)
    (he : ∀ e ∈ f.events, e.pressed? = none) {elapsed : Quantity} {n : Int} {p : Pacer}
    (ht : (f.clock.getD s.clock).sub s.clock = .ok elapsed)
    (hp : Pacer.advance elapsed s.paced.pacer = .ok n p) :
    ∃ s', Unattended foreground background s'.machine ∧ s'.size = s.size ∧
      match Machine.run n.toNat s.machine.bare with
      | .ok _ b =>
        frame none f s = .ok ⟨⟩ s' ∧ s'.machine.bare = b ∧ s'.shown = s.shown + 1 ∧
          s'.clock = f.clock.getD s.clock ∧ s'.paced.pacer = p
      | .error e b => frame none f s = .error (.fault e) s' ∧ s'.machine.bare = b := by
  obtain ⟨b, hb⟩ := handle_unattended h he
  have hstart : Unattended foreground background { s.machine with sounder := b } := h.withSounder b
  have hend := hstart.run n.toNat
  have hbare : Machine.run n.toNat s.machine.bare =
      Machine.bareResult (Machine.run n.toNat { s.machine with sounder := b }) :=
    Machine.run_bare hstart.calm n.toNat
  rw [frame_eq, hb, hbare]
  cases hr : Machine.run n.toNat { s.machine with sounder := b } with
  | ok _ m =>
    rw [Machine.after, hr] at hend
    have hframe : Paced.frame elapsed ⟨{ s.machine with sounder := b }, s.paced.pacer⟩ =
        .ok n ⟨m, p⟩ := by
      rw [Paced.frame_of_ok (s := ⟨{ s.machine with sounder := b }, s.paced.pacer⟩) hp hr,
        hend.withKeys_closeFrame, ite_self]
    refine ⟨⟨⟨m, p⟩, f.clock.getD s.clock, s.shown + 1, s.size⟩, hend, rfl, ?_, rfl, rfl, rfl, rfl⟩
    simp only [cycles, ht, hframe]
  | error e m =>
    rw [Machine.after, hr] at hend
    have hframe : Paced.frame elapsed ⟨{ s.machine with sounder := b }, s.paced.pacer⟩ =
        .error (.fault e) ⟨m, p⟩ := Paced.frame_of_fault hp hr
    refine ⟨{ s with paced := ⟨m, p⟩ }, hend, rfl, ?_, rfl⟩
    simp only [cycles, ht, hframe]

/-- A session that nobody plays in: all the cycles that the pacer gives, one after the other. -/
theorem run_unattended {frames : List Frame} {counts : List Nat}
    (h : Unattended foreground background s.machine)
    (he : ∀ f ∈ frames, ∀ e ∈ f.events, e.pressed? = none)
    (hg : granted frames s.clock s.paced.pacer = .ok counts) :
    ∃ s', Unattended foreground background s'.machine ∧ s'.size = s.size ∧
      match Machine.run counts.sum s.machine.bare with
      | .ok _ b =>
        run none frames s = .ok ⟨⟩ s' ∧ s'.machine.bare = b ∧
          s'.shown = s.shown + counts.length
      | .error e b => run none frames s = .error (.fault e) s' ∧ s'.machine.bare = b := by
  -- The bare machine that a frame ends with is the one that the next frame starts from, so the runs
  -- of the frames are put together by `run_add`.
  induction frames generalizing s counts with
  | nil =>
    obtain rfl : [] = counts := by simpa [granted] using hg
    exact ⟨s, h, rfl, rfl, rfl, rfl⟩
  | cons f fs ih =>
    obtain ⟨elapsed, n, p, ns, ht, hp, rfl, hns⟩ := granted_cons hg
    obtain ⟨s₁, h₁, hsize, hf⟩ := frame_unattended h (he f List.mem_cons_self) ht hp
    rw [List.sum_cons, Machine.run_add]
    cases hr : Machine.run n.toNat s.machine.bare with
    | error e b =>
      rw [hr] at hf
      obtain ⟨hframe, hb⟩ := hf
      exact ⟨s₁, h₁, hsize, by simp only [run, hframe], hb⟩
    | ok _ b =>
      rw [hr] at hf
      obtain ⟨hframe, hb, hshown, hclock, hpacer⟩ := hf
      by_cases hq : f.events.any Event.isQuit = true
      · rw [if_pos hq] at hns
        subst hns
        exact ⟨s₁, h₁, hsize, by simp only [run, hframe, hq, if_pos], hb, hshown⟩
      · rw [if_neg hq, ← hclock, ← hpacer] at hns
        obtain ⟨s', h', hsize', hrest⟩ := ih h₁ (fun g hg => he g (List.mem_cons_of_mem f hg)) hns
        have hrun : run none (f :: fs) s = run none fs s₁ := by
          simp only [run, hframe, if_neg hq]
        rw [hb] at hrest
        refine ⟨s', h', hsize'.trans hsize, ?_⟩
        rw [hrun]
        dsimp only
        cases hr' : Machine.run ns.sum b with
        | error e b' =>
          rw [hr'] at hrest
          exact hrest
        | ok _ b' =>
          rw [hr'] at hrest
          obtain ⟨hok, hb', hshown'⟩ := hrest
          refine ⟨hok, hb', ?_⟩
          rw [hshown', hshown, List.length_cons]
          omega

end Session

/-! ### With a window and without one -/

/-- The machine that a session starts with. -/
def firstMachine (program : List UInt8) (speaker : Speaker) (canvas : Canvas) (seed : Int) :
    WindowMachine :=
  Machine.after (Machine.loadProgram program)
    (Machine.powerOn .initial speaker canvas (Twister.ofSeed seed) false
      (.withLimit Trace.defaultLimit))

theorem unattended_firstMachine {foreground background : Colour} {canvas : Canvas}
    (hsystem : Dependable foreground background)
    (hcanvas : canvas.Shows foreground background .blank) (program : List UInt8)
    (speaker : Speaker) (seed : Int) :
    Unattended foreground background (firstMachine program speaker canvas seed) := by
  refine ⟨?_, hsystem, ?_, ?_⟩
  · refine Machine.Calm.loadProgram ?_ program
    exact Machine.calm_powerOn (reliable_speaker speaker) (hcanvas.steady hsystem) _ _ _ _
  · rw [firstMachine, Machine.after_loadProgram]
    split <;> rfl
  · rw [Machine.display, Machine.screen, firstMachine, Machine.video_loadProgram]
    exact hcanvas

/-- The machine of a run without a window, which is the same without its devices. -/
theorem exists_headless {program : List UInt8} (speaker : Speaker) (canvas : Canvas) (seed : Int)
    (tracing : Bool) (limit : Nat) (hprogram : program.length ≤ maxProgramSize) :
    ∃ h₀ : HeadlessMachine,
      Machine.loadProgram program (headlessMachine seed tracing limit) = .ok () h₀ ∧ h₀.Calm ∧
      h₀.cpu.cycles = 0 ∧ (firstMachine program speaker canvas seed).bare = h₀.bare := by
  have hpowerOn : (Machine.powerOn .initial speaker canvas (Twister.ofSeed seed) false
      (.withLimit Trace.defaultLimit) : WindowMachine).bare =
        (headlessMachine seed tracing limit).bare := by
    change Machine.powerOn (keyView Keypad.initial) _ _ _ _ _ = _
    rw [keyView_initial]
    rfl
  refine ⟨Machine.after (Machine.loadProgram program) (headlessMachine seed tracing limit),
    ?_, ?_, ?_, ?_⟩
  · rw [Machine.after, Machine.loadProgram_eq, if_neg (Nat.not_lt.mpr hprogram)]
  · refine Machine.Calm.loadProgram ?_ program
    exact Machine.calm_powerOn (BeepCounter.reliable rfl) (Recorder.steady rfl) _ _ _ _
  · rw [Machine.cycles_loadProgram]
    rfl
  · rw [firstMachine, Machine.bare_loadProgram, hpowerOn, Machine.bare_loadProgram]

/-- The session that is started, if the window can be opened and the tone can be made. -/
theorem start_eq {settings : Settings} {program : List UInt8} {script : Script} {seed : Int}
    {speed : Quantity} {size : Int × Int} {canvas : Canvas} {speaker : Speaker}
    (hprogram : program.length ≤ maxProgramSize) (hseed : settings.seed = some (some seed))
    (hspeed : settings.speed = some speed) (hpositive : speed.isAtMostZero = false)
    (hopen : settings.openWindow = .ok (size, canvas))
    (htone : Speaker.create script.audio settings.tone = .ok speaker) :
    Session.start settings program script =
      .ok ⟨⟨firstMachine program speaker canvas seed,
        ⟨speed, .real Pacer.defaultLongest, .zero⟩⟩, script.start, 0, size⟩ := by
  have hbytes : settings.bytes = .ok (Twister.ofSeed seed) := by
    simp [Settings.bytes, hseed]
  have hpacer : settings.pacer = .ok ⟨speed, .real Pacer.defaultLongest, .zero⟩ := by
    have hlongest : (Quantity.real Pacer.defaultLongest).isAtMostZero = false := by decide +kernel
    rw [Settings.pacer, hspeed]
    simp only [Pacer.create, hpositive, hlongest]
    rfl
  have hfit : ¬maxProgramSize < program.length := Nat.not_lt.mpr hprogram
  simp only [Session.start, hopen, htone, hbytes, hpacer, loaded, firstMachine,
    Machine.loadProgram_eq, if_neg hfit, Machine.after]
  rfl

/-- A program runs the same in a window that nobody plays in as without a window, with the same
seed: for as many cycles as the pacer gives, in however many frames. -/
theorem run_eq_headless {settings : Settings} {program : List UInt8} {script : Script} {seed : Int}
    {speed : Quantity} {size : Int × Int} {canvas : Canvas} {speaker : Speaker}
    {counts : List Nat} (tracing : Bool)
    (hprogram : program.length ≤ maxProgramSize) (hseed : settings.seed = some (some seed))
    (hspeed : settings.speed = some speed) (hpositive : speed.isAtMostZero = false)
    (hdistinct : settings.foreground.take 3 ≠ settings.background.take 3)
    (hsystem : Dependable settings.foreground settings.background)
    (hopen : settings.openWindow = .ok (size, canvas))
    (htone : Speaker.create script.audio settings.tone = .ok speaker)
    (hshown : script.lastShown = none)
    (hkeys : ∀ f ∈ script.frames, ∀ e ∈ f.events, e.pressed? = none)
    (hgranted : granted script.allFrames script.start
      ⟨speed, .real Pacer.defaultLongest, .zero⟩ = .ok counts) :
    ∃ session h₀,
      Session.start settings program script = .ok session ∧
      Machine.loadProgram program (headlessMachine seed tracing Trace.defaultLimit) = .ok () h₀ ∧
      (∀ h, Machine.run counts.sum h₀ = .ok () h →
        ∃ s, Session.run none script.allFrames session = .ok ⟨⟩ s ∧
          s.machine.cpu = h.cpu ∧ s.machine.screen = h.screen ∧
          (run settings program script).outcome = .ok counts.sum ∧
          (run settings program script).picture = some ⟨size, h.screen⟩ ∧
          ∀ x < screenWidth, ∀ y < screenHeight,
            WindowSystem.getAt x y s.machine.display.backbuffer = settings.foreground.take 3 ↔
              h.screen.pixel x y = true) ∧
      (∀ k < counts.sum, ∀ f g h, Machine.run k h₀ = .ok () g → Machine.cycle g = .error f h →
        ∃ s, Session.run none script.allFrames session = .error (.fault f) s ∧
          (run settings program script).outcome = .error (.fault f) ∧
          s.machine.cpu = h.cpu ∧ s.machine.cpu.cycles = k ∧ s.machine.screen = h.screen ∧
          ∀ x < screenWidth, ∀ y < screenHeight,
            WindowSystem.getAt x y s.machine.display.backbuffer = settings.foreground.take 3 ↔
              h.screen.pixel x y = true) := by
  have hstart := start_eq hprogram hseed hspeed hpositive hopen htone
  have hunattended := unattended_firstMachine hsystem (shows_openWindow hsystem.lawful hopen)
    program speaker seed
  obtain ⟨h₀, hload, hcalm, hcycles, hbare⟩ :=
    exists_headless speaker canvas seed tracing Trace.defaultLimit hprogram
  have hsome : counts.length ≠ 0 := by
    have hne : script.allFrames ≠ [] := by simp [Script.allFrames]
    exact fun hl => granted_ne_nil hne hgranted (List.length_eq_zero_iff.mp hl)
  obtain ⟨s, hs, hsize', hrun⟩ := Session.run_unattended
    (s := ⟨⟨firstMachine program speaker canvas seed,
      ⟨speed, .real Pacer.defaultLongest, .zero⟩⟩, script.start, 0, size⟩)
    hunattended (pressed?_allFrames hkeys) hgranted
  have hdisplay : ∀ h : HeadlessMachine, s.machine.bare = h.bare →
      s.machine.cpu = h.cpu ∧ s.machine.screen = h.screen ∧
        s.machine.display.Shows settings.foreground settings.background h.screen := by
    intro h hb
    have hscreen : s.machine.screen = h.screen := congrArg Machine.screen hb
    exact ⟨congrArg Machine.cpu hb, hscreen, hscreen ▸ hs.display⟩
  rw [Session.machine, hbare, Machine.run_bare hcalm] at hrun
  refine ⟨_, h₀, hstart, hload, ?_, ?_⟩
  · intro h hok
    rw [hok] at hrun
    obtain ⟨hsession, hb, hcount⟩ := hrun
    obtain ⟨hcpu, hscreen, hshows⟩ := hdisplay h hb
    have htotal : s.machine.cpu.cycles = counts.sum := by
      rw [hcpu, Machine.cycles_run hcalm.intact hok, hcycles, Int.zero_add]
    have hpresented : s.shown ≠ 0 := by
      rw [hcount, Nat.zero_add]
      exact hsome
    refine ⟨s, hsession, hcpu, hscreen, ?_, ?_, fun x hx y hy =>
      hshows.getAt_eq_iff hdistinct hx hy⟩
    · simp only [run, hstart, hshown, hsession, Session.result, htotal]
    · simp only [run, hstart, hshown, hsession, Session.result, if_neg hpresented,
        hshows.lit_eq hdistinct, hsize']
  · intro k hk f g h hok he
    rw [Machine.run_of_cycle_error hk hok he] at hrun
    obtain ⟨hsession, hb⟩ := hrun
    obtain ⟨hcpu, hscreen, hshows⟩ := hdisplay h hb
    have hg : g.cpu.Intact := by
      have hafter := Machine.run_intact hcalm.intact k
      rwa [Machine.after, hok] at hafter
    refine ⟨s, hsession, ?_, hcpu, ?_, hscreen, fun x hx y hy =>
      hshows.getAt_eq_iff hdistinct hx hy⟩
    · simp only [run, hstart, hshown, hsession, Session.result]
    · rw [hcpu, Machine.cycles_of_error hg he, Machine.cycles_run hcalm.intact hok, hcycles,
        Int.zero_add]

end AnySystem

/-- A glyph is drawn, and behind it there is no instruction. With two cycles the window shows what
was drawn, and with a third one the session fails. In between the tone is shut off, and a key is let
go that was not pressed. -/
theorem run_eq_headless_of_glyph :
    ∃ (settings : Quantity → Settings) (script : Script) (h : HeadlessMachine),
      (∀ speed, settings speed =
        { Settings.standard with speed := some speed, seed := some (some 0) }) ∧
      script = ⟨.whole 0, [⟨[.toneOver, .keyUp 97], some (.whole 1)⟩], some .preferred, none⟩ ∧
      (run (settings (.whole 8)) [0xF0, 0x29, 0xD0, 0x05] script).outcome = .ok 2 ∧
      (run (settings (.whole 8)) [0xF0, 0x29, 0xD0, 0x05] script).picture =
        some ⟨(640, 320), h.screen⟩ ∧
      h.screen.pixel 0 0 = true ∧
      (run (settings (.whole 12)) [0xF0, 0x29, 0xD0, 0x05] script).outcome =
        .error (.fault (.unknownWord 0x204 0)) := by
  obtain ⟨settings, hsettings⟩ : ∃ settings : Quantity → Settings, settings = fun speed =>
    { Settings.standard with speed := some speed, seed := some (some 0) } := ⟨_, rfl⟩
  obtain ⟨script, hscript⟩ : ∃ script : Script, script =
    ⟨.whole 0, [⟨[.toneOver, .keyUp 97], some (.whole 1)⟩], some .preferred, none⟩ := ⟨_, rfl⟩
  obtain ⟨speaker, hspeaker⟩ : ∃ speaker,
    Speaker.create (some .preferred) ToneSettings.standard = .ok speaker := ⟨_, rfl⟩
  obtain ⟨canvas, hcanvas⟩ : ∃ canvas,
    Settings.standard.openWindow = .ok ((640, 320), canvas) := ⟨_, rfl⟩
  obtain ⟨m, hm⟩ : ∃ m, m = Machine.after (Machine.loadProgram [0xF0, 0x29, 0xD0, 0x05])
    (headlessMachine (some 0) false Trace.defaultLimit) := ⟨_, rfl⟩
  have hprogram : ([0xF0, 0x29, 0xD0, 0x05] : List UInt8).length ≤ maxProgramSize := by decide
  have hseed : ∀ speed, (settings speed).seed = some (some 0) := by simp [hsettings]
  have hspeed : ∀ speed, (settings speed).speed = some speed := by simp [hsettings]
  have hdistinct : ∀ speed,
      (settings speed).foreground.take 3 ≠ (settings speed).background.take 3 := by
    have hstandard :
        Settings.standard.foreground.take 3 ≠ Settings.standard.background.take 3 := by decide
    rw [hsettings]
    exact fun _ => hstandard
  have hsystem : ∀ speed, Dependable (settings speed).foreground (settings speed).background := by
    rw [hsettings]
    exact fun _ => dependable_raster rfl rfl
  have hopen : ∀ speed, (settings speed).openWindow = .ok ((640, 320), canvas) := by
    rw [hsettings]
    exact fun _ => hcanvas
  have htone : ∀ speed, Speaker.create script.audio (settings speed).tone = .ok speaker := by
    rw [hsettings, hscript]
    exact fun _ => hspeaker
  have hkeys : ∀ f ∈ script.frames, ∀ e ∈ f.events, e.pressed? = none := by
    rw [hscript]
    decide
  have hgranted : granted script.allFrames script.start
      ⟨.whole 8, .real Pacer.defaultLongest, .zero⟩ = .ok [2, 0] ∧
      granted script.allFrames script.start
        ⟨.whole 12, .real Pacer.defaultLongest, .zero⟩ = .ok [3, 0] := by
    rw [hscript]
    decide +kernel
  have hintact : m.cpu.Intact := by
    rw [hm]
    exact Machine.loadProgram_intact Processor.intact_powerOn _
  obtain ⟨hpassed, hfault, hlit⟩ :
      (∀ k < 2, (Machine.after (Machine.run k) m).firstFault? = none) ∧
      (Machine.after (Machine.run 2) m).firstFault? = some (.decode, .unknownWord 0x204 0) ∧
      (Machine.after (Machine.run 2) m).screen.pixel 0 0 = true := by
    rw [hm]
    decide +kernel
  have hrun := Machine.run_of_firstFault? hintact hpassed
  have hfailed := (Machine.cycle_eq_error_iff (Machine.run_intact hintact 2)).mpr
    ⟨_, hfault, rfl⟩
  obtain ⟨_, h₀, -, hload, hok, -⟩ := run_eq_headless false hprogram (hseed _)
    (hspeed (.whole 8)) rfl (hdistinct _) (hsystem _) (hopen _) (htone _) (by rw [hscript]) hkeys
    hgranted.1
  obtain ⟨_, h₁, -, hload', -, herror⟩ := run_eq_headless false hprogram (hseed _)
    (hspeed (.whole 12)) rfl (hdistinct _) (hsystem _) (hopen _) (htone _) (by rw [hscript]) hkeys
    hgranted.2
  obtain rfl : m = h₀ := by rw [hm, Machine.after, hload]
  obtain rfl : m = h₁ := by rw [hm, Machine.after, hload']
  obtain ⟨_, -, -, -, houtcome, hpicture, -⟩ := hok _ hrun
  obtain ⟨_, -, hfailure, -⟩ := herror 2 (by decide) _ _ _ hrun hfailed
  exact ⟨settings, script, _, congrFun hsettings, hscript, houtcome, hpicture, hlit, hfailure⟩

/-- A tone without a pitch cannot be made. Then the session does not get going at all, although the
window can be opened, the speed is positive and the run without a window has no fault. -/
theorem run_without_pitch :
    ∃ (settings : Settings) (script : Script) (h₀ h : HeadlessMachine),
      settings = { Settings.standard with
        speed := some (.whole 8), seed := some (some 0)
        tone := { ToneSettings.standard with pitch := .whole 0 } } ∧
      script = ⟨.whole 0, [⟨[], some (.whole 1)⟩], some .preferred, none⟩ ∧
      (Quantity.whole 8).isAtMostZero = false ∧
      settings.foreground.take 3 ≠ settings.background.take 3 ∧
      Dependable settings.foreground settings.background ∧
      (∃ canvas, settings.openWindow = .ok ((640, 320), canvas)) ∧
      granted script.allFrames script.start ⟨.whole 8, .real Pacer.defaultLongest, .zero⟩ =
        .ok [2, 0] ∧
      Machine.loadProgram [0x12, 0x00] (headlessMachine (some 0) false Trace.defaultLimit) =
        .ok () h₀ ∧
      Machine.run 2 h₀ = .ok () h ∧
      (run settings [0x12, 0x00] script).outcome = .error (.wave (.quantity .divisionByZero)) := by
  refine ⟨_, _, Machine.after (Machine.loadProgram [0x12, 0x00])
    (headlessMachine (some 0) false Trace.defaultLimit), _, rfl, rfl, rfl, by decide,
    dependable_raster rfl rfl, ⟨_, rfl⟩, by decide +kernel, ?_,
    Machine.run_of_firstFault? ?_ ?_, rfl⟩
  · rw [Machine.after, Machine.loadProgram_eq, if_neg (by decide)]
  · exact Machine.loadProgram_intact Processor.intact_powerOn _
  · decide +kernel

end Window

end Chip8
