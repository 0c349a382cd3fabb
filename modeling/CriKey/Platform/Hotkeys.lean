import CriKey.Base.Machine
import CriKey.Core.Text

/-! The activation hotkey: accelerators, the X11 registrations, the one handler slot, and the
launcher's record of the chord it holds. -/
namespace CriKey.Platform
open CriKey.Base CriKey.Core Option

/-! Accelerators. -/

inductive Modifier where
  | ctrl | alt | shift | metaKey
deriving DecidableEq, Repr

inductive HotkeyError where
  | emptyComponent
  | missingKey
  | duplicateModifier (modifier : String)
  | trailingComponent (component : String)
  | unknownComponent (component : String)
deriving DecidableEq, Repr

namespace Modifier

def order : List Modifier := [.ctrl, .alt, .shift, .metaKey]

def name : Modifier → String
  | .ctrl => "Ctrl"
  | .alt => "Alt"
  | .shift => "Shift"
  | .metaKey => "Meta"

def parse (component : List Char) : Option Modifier :=
  order.find? fun modifier => eqIgnoreAsciiCase component modifier.name.toList

end Modifier

def namedKeys : List String :=
  ["Space", "Enter", "Tab", "Escape", "Backspace", "Delete", "Insert", "Home", "End", "PageUp",
    "PageDown", "Up", "Down", "Left", "Right"]

/-- `F1` to `F24` in one spelling each. -/
def functionKey : List Char → Option String
  | [] => none
  | first :: digits =>
    if (first = 'f' || first = 'F') && (digits.length = 1 || digits.length = 2) &&
        digits.head? ≠ some '0' && digits.all Char.isDigit &&
        digits.foldl (fun n d => 10 * n + (d.toNat - '0'.toNat)) 0 ≤ 24 then
      some (String.ofList ('F' :: digits))
    else none

def canonicalKey (component : List Char) : Option String :=
  match namedKeys.find? fun name => eqIgnoreAsciiCase component name.toList, component with
  | some named, _ => some named
  | none, [single] =>
    if single.isAlpha || single.isDigit then some (String.ofList [single.toUpper]) else none
  | none, component => functionKey component

structure Accelerator where
  modifiers : Modifier → Bool
  key : String

namespace Accelerator

/-- One round of the parser: what is set so far and the key, once there is one. -/
def parseComponent (parsed : (Modifier → Bool) × Option String) (component : List Char) :
    Except HotkeyError ((Modifier → Bool) × Option String) :=
  let component := trim (String.ofList component)
  if component = "" then .error .emptyComponent
  else if parsed.2.isSome then .error (.trailingComponent component)
  else
    match Modifier.parse component.toList, canonicalKey component.toList with
    | some modifier, _ =>
      if parsed.1 modifier then .error (.duplicateModifier modifier.name)
      else .ok (Function.update parsed.1 modifier true, none)
    | none, some key => .ok (parsed.1, some key)
    | none, none => .error (.unknownComponent component)

def parse (text : String) : Except HotkeyError Accelerator :=
  match (text.toList.splitOn '+').foldlM parseComponent (fun _ => false, none) with
  | .error error => .error error
  | .ok (modifiers, some key) => .ok ⟨modifiers, key⟩
  | .ok (_, none) => .error .missingKey

/-- `Ctrl+Alt+Shift+Meta+Key`, with the modifiers that are set. -/
def canonical (accelerator : Accelerator) : String :=
  "+".intercalate ((Modifier.order.filter accelerator.modifiers).map Modifier.name ++
    [accelerator.key])

end Accelerator

open Accelerator

def chordOf (text : String) : Option String :=
  (parse text).toOption.map canonical

/-! The service and the launcher. -/

inductive HotkeyFault where
  | malformed (error : HotkeyError)
  | connectionGone (canonical : String)
  | notGrabbed (canonical : String)
  | nothingToRelease (canonical : String)
  | notReleased (canonical : String)
deriving DecidableEq, Repr

/-- What X says to a grab: the connection is gone, refused, granted. -/
inductive GrabAnswer where
  | gone | refused | granted
deriving DecidableEq, Repr

/-- The chord that could not be handed back. -/
structure Stranded where
  accelerator : String
  previous : String
  error : HotkeyFault
deriving DecidableEq, Repr

/-- The registration map by its keys, whether a handler is installed, and the two texts of
`ActivationHotkey`. -/
structure Hotkeys where
  registrations : List String
  handler : Bool
  bound : Option String
  attempted : Option String

/-- A call of `bind` with what X answers it. -/
structure BindCall where
  accelerator : String
  grab : GrabAnswer
  ungrabbed : Bool

namespace Hotkeys

def new : Hotkeys := ⟨[], false, none, none⟩

variable (s : Hotkeys)

def register (grab : GrabAnswer) (accelerator : String) : Hotkeys × Except HotkeyFault Unit :=
  match parse accelerator with
  | .error error => (s, .error (.malformed error))
  | .ok chord =>
    if grab = .gone then (s, .error (.connectionGone chord.canonical))
    else if chord.canonical ∈ s.registrations then (s, .ok ())
    else if grab = .refused then (s, .error (.notGrabbed chord.canonical))
    else ({ s with registrations := chord.canonical :: s.registrations }, .ok ())

/-- The entry goes even when X refuses the ungrab. -/
def unregister (ungrabbed : Bool) (accelerator : String) : Hotkeys × Except HotkeyFault Unit :=
  match parse accelerator with
  | .error error => (s, .error (.malformed error))
  | .ok chord =>
    if chord.canonical ∈ s.registrations then
      ({ s with registrations := s.registrations.filter (· ≠ chord.canonical) },
        if ungrabbed then .ok () else .error (.notReleased chord.canonical))
    else (s, .error (.nothingToRelease chord.canonical))

def registerActivationHotkey (grab : GrabAnswer) (accelerator : String) :
    Hotkeys × Except HotkeyFault Unit :=
  match ({ s with handler := true } : Hotkeys).register grab accelerator with
  | (s, .error error) => ({ s with handler := false }, .error error)
  | (s, .ok ()) => (s, .ok ())

variable (call : BindCall)

/-- The grab is taken before the old one is released. -/
def bind : Hotkeys × Except HotkeyFault (Option Stranded) :=
  let s := { s with attempted := some call.accelerator }
  if s.bound = some call.accelerator then (s, .ok none)
  else
    match s.registerActivationHotkey call.grab call.accelerator with
    | (s, .error error) => (s, .error error)
    | (s, .ok ()) =>
      match s.bound with
      | none => ({ s with bound := some call.accelerator }, .ok none)
      | some previous =>
        match ({ s with bound := some call.accelerator } : Hotkeys).unregister call.ungrabbed
            previous with
        | (s, .ok ()) => (s, .ok none)
        | (s, .error error) => (s, .ok (some ⟨call.accelerator, previous, error⟩))

def step : Option (Hotkeys × Except HotkeyFault (Option Stranded)) :=
  some (s.bind call)

/-- Another text for the chord that is bound. -/
def respells : Bool :=
  s.bound.any fun text => text ≠ call.accelerator && chordOf text = chordOf call.accelerator

def refuses : Bool :=
  s.bound ≠ some call.accelerator && (chordOf call.accelerator).all fun chord =>
    call.grab = .gone || call.grab = .refused && chord ∉ s.registrations

/-- The registrations are the chord of `bound` and nothing else. -/
structure Live : Prop where
  named : ∀ text, s.bound = some text → ∃ chord, chordOf text = some chord
  mem_iff : ∀ chord, chord ∈ s.registrations ↔ s.bound.bind chordOf = some chord

/-- The ways a call ends in a state where the bound chord is registered. -/
inductive Binds (call : BindCall) : Hotkeys → Except HotkeyFault (Option Stranded) → Prop
  | same (again : s.bound = some call.accelerator) :
      Binds call { s with attempted := some call.accelerator } (.ok none)
  | refused {error : HotkeyFault} (refuses : s.refuses call = true) :
      Binds call { s with handler := false, attempted := some call.accelerator } (.error error)
  | taken {chord : String} {w : Option Stranded} (other : s.bound ≠ some call.accelerator)
      (accepts : s.refuses call = false) (named : chordOf call.accelerator = some chord) :
      Binds call ⟨(s.registrations.insert chord).filter (some · ≠ s.bound.bind chordOf), true,
        some call.accelerator, some call.accelerator⟩ (.ok w)

variable {s}

lemma chordOf_eq_some {text chord : String} (h : chordOf text = some chord) :
    ∃ accelerator, parse text = .ok accelerator ∧ accelerator.canonical = chord := by
  cases hp : parse text with
  | error error => simp [chordOf, hp, Except.toOption] at h
  | ok accelerator => exact ⟨accelerator, rfl, by simpa [chordOf, hp, Except.toOption] using h⟩

lemma register_eq (call : BindCall) (hother : s.bound ≠ some call.accelerator) :
    s.refuses call = true ∧ (∃ error, s.register call.grab call.accelerator = (s, .error error)) ∨
      s.refuses call = false ∧ ∃ chord, chordOf call.accelerator = some chord ∧
        s.register call.grab call.accelerator =
          ({ s with registrations := s.registrations.insert chord }, .ok ()) := by
  unfold register
  cases hp : parse call.accelerator with
  | error error => simp [refuses, chordOf, hp, hother, Except.toOption]
  | ok accelerator =>
    have hchord : chordOf call.accelerator = some accelerator.canonical := by
      simp [chordOf, hp, Except.toOption]
    by_cases hmem : accelerator.canonical ∈ s.registrations <;> cases hg : call.grab <;>
      simp [refuses, hchord, hg, hmem, hother]

lemma bind_spec (h : s.Live) (call : BindCall) : s.Binds call (s.bind call).1 (s.bind call).2 := by
  by_cases hother : s.bound = some call.accelerator
  · rw [bind, if_pos hother]
    exact .same hother
  have hreg := register_eq (s := ⟨s.registrations, true, s.bound, some call.accelerator⟩)
    call hother
  simp only [bind, hother, registerActivationHotkey]
  obtain ⟨hrefuses, error, heq⟩ | ⟨haccepts, chord, hchord, heq⟩ := hreg
  · simp only [heq]
    exact .refused hrefuses
  simp only [heq]
  have htaken (w : Option Stranded) := Binds.taken (w := w) hother haccepts hchord
  cases hbound : s.bound with
  | none => simpa [hbound] using htaken none
  | some previous =>
    obtain ⟨old, hold⟩ := h.named previous hbound
    obtain ⟨accelerator, hparse, rfl⟩ := chordOf_eq_some hold
    have hmem : accelerator.canonical ∈ s.registrations :=
      (h.mem_iff _).mpr (by simp [hbound, hold])
    simp only [hbound, bind_some, hold, ne_eq, some.injEq] at htaken
    simp only [unregister, hparse, List.mem_insert_iff, hmem, or_true]
    cases call.ungrabbed <;> exact htaken _

lemma Binds.live {call : BindCall} {s' : Hotkeys} {result : Except HotkeyFault (Option Stranded)}
    (hb : s.Binds call s' result) (h : s.Live) (hcall : s.respells call = false) : s'.Live := by
  cases hb with
  | same again | refused refuses => exact ⟨h.named, h.mem_iff⟩
  | @taken chord w other accepts named =>
    refine ⟨by simp [named], fun k => ?_⟩
    have hne : s.bound.bind chordOf ≠ some chord := by
      intro heq
      obtain ⟨text, htext, hchord⟩ := Option.bind_eq_some_iff.mp heq
      have htexts : text ≠ call.accelerator := fun h => other (h ▸ htext)
      simp [respells, htext, htexts, hchord, named] at hcall
    rw [bind_some, named, List.mem_filter, List.mem_insert_iff, h.mem_iff, decide_eq_true_iff,
      some_inj]
    constructor
    · rintro ⟨rfl | hold, hkept⟩
      · rfl
      · exact absurd hold.symm hkept
    · rintro rfl
      exact ⟨.inl rfl, hne.symm⟩

/-! Runs of `bind`. -/

variable {tr : List (BindCall × Except HotkeyFault (Option Stranded))} {e : BindCall}
  {w : Option Stranded}

lemma live_exec {P : Hotkeys → BindCall → Prop} (hP : ∀ s call, P s call → s.respells call = false)
    (h : ExecWhen step P new tr s) : s.Live ∧ ((e, .ok w) ∈ tr → s.bound ≠ none) ∧
      ((∀ s call, P s call → s.bound ≠ none → s.refuses call = false) →
        s.bound ≠ none → s.handler = true) := by
  refine ExecWhen.invariant (fun tr s => s.Live ∧ ((e, .ok w) ∈ tr → s.bound ≠ none) ∧
    ((∀ s call, P s call → s.bound ≠ none → s.refuses call = false) →
      s.bound ≠ none → s.handler = true)) ⟨⟨by simp [new], by simp [new]⟩, by simp, by simp [new]⟩
    ?_ h
  intro tr s call s' out ⟨hlive, hbound, hset⟩ hcall hstep
  have hb := bind_spec hlive call
  simp only [step, some.injEq] at hstep
  rw [hstep] at hb
  refine ⟨hb.live hlive (hP _ _ hcall), ?_⟩
  cases hb with
  | same again => exact ⟨by simp [again], hset⟩
  | refused refuses =>
    refine ⟨by simpa using hbound, fun hkept hne => ?_⟩
    rw [hkept s call hcall hne] at refuses
    cases refuses
  | taken => simp

/-- Unless a call names the bound chord by another text, once a call has succeeded the canonical
chord of `bound` is registered, and nothing else is. -/
theorem bound_chord_registered (h : ExecWhen step (fun s call => s.respells call = false) new tr s)
    (hok : (e, .ok w) ∈ tr) :
    ∃ text chord, s.bound = some text ∧ chordOf text = some chord ∧
      ∀ k, k ∈ s.registrations ↔ k = chord := by
  obtain ⟨hlive, hbound, -⟩ := live_exec (fun _ _ h => h) h
  obtain ⟨text, htext⟩ := ne_none_iff_exists'.mp (hbound hok)
  obtain ⟨chord, hchord⟩ := hlive.named text htext
  simp [hlive.mem_iff, htext, hchord, eq_comm]

/-- A call whose release X honours. -/
def releasing (accelerator : String) (grab : GrabAnswer) : BindCall := ⟨accelerator, grab, true⟩

theorem bound_chord_registered_twice : ∃ tr s,
    ExecWhen step (fun s call => s.respells call = false) new tr s ∧
    ∃ text chord, s.bound = some text ∧ chordOf text = some chord ∧
      ∀ k, k ∈ s.registrations ↔ k = chord := by
  have h : ExecWhen step (fun s call => s.respells call = false) new _ _ :=
    .next (.next .start (by decide +kernel) (i := releasing "Ctrl+Space" .granted) rfl)
      (by decide +kernel) (i := releasing "Alt+Space" .granted) rfl
  exact ⟨_, _, h, bound_chord_registered h (e := releasing "Ctrl+Space" .granted)
    (w := none) (by simp)⟩

/-- A second text for the chord: the grab is shared, and the release of the old text ends it. -/
theorem respelling_releases_chord : ∃ s tr,
    run step new [releasing "Ctrl+Space" .granted, releasing "ctrl+space" .granted] = some (s, tr) ∧
    tr.map (·.2) = [.ok none, .ok none] ∧ s.bound = some "ctrl+space" ∧
    chordOf "ctrl+space" = some "Ctrl+Space" ∧ s.registrations = [] :=
  ⟨_, _, rfl, by decide +kernel, by decide +kernel, by decide +kernel, by decide +kernel⟩

/-- A call that keeps what is bound in force. -/
def keeps (s : Hotkeys) (call : BindCall) : Prop :=
  s.respells call = false ∧ (s.bound ≠ none → s.refuses call = false)

/-- While no call respells the bound chord or is refused when there is one, the bound chord raises
the launcher. A further call leaves a chord bound and registered, and the handler installed
exactly when the service takes the chord. -/
theorem handler_kept_iff (h : ExecWhen step keeps new tr s) (hok : (e, .ok w) ∈ tr)
    (call : BindCall) (hcall : s.respells call = false) :
    s.handler = true ∧ (∃ text chord, (s.bind call).1.bound = some text ∧
        chordOf text = some chord ∧ chord ∈ (s.bind call).1.registrations) ∧
      ((s.bind call).1.handler = true ↔ s.refuses call = false) := by
  obtain ⟨hlive, hbound, hset⟩ := live_exec (fun _ _ h => h.1) h
  have hset := hset (fun _ _ h => h.2) (hbound hok)
  have hb := bind_spec hlive call
  have hlive' := hb.live hlive hcall
  have hafter : (s.bind call).1.bound ≠ none ∧
      ((s.bind call).1.handler = true ↔ s.refuses call = false) := by
    generalize (s.bind call).1 = s', (s.bind call).2 = result at hb
    cases hb with
    | same again => simp [refuses, again, hset]
    | refused refuses => simp [hbound hok, refuses]
    | taken other accepts => simp [accepts]
  obtain ⟨text, htext⟩ := ne_none_iff_exists'.mp hafter.1
  obtain ⟨chord, hchord⟩ := hlive'.named text htext
  exact ⟨hset, ⟨text, chord, htext, hchord, (hlive'.mem_iff chord).mpr (by simp [htext, hchord])⟩,
    hafter.2⟩

theorem handler_kept_after_rebind : ∃ tr s, ExecWhen step keeps new tr s ∧ s.handler = true ∧
    (s.bind (releasing "Alt+Space" .granted)).1.handler = true := by
  have h : ExecWhen step keeps new _ _ :=
    .next .start ⟨by decide +kernel, by decide +kernel⟩ (i := releasing "Ctrl+Space" .granted) rfl
  have hkept := handler_kept_iff h (e := releasing "Ctrl+Space" .granted) (w := none)
    (by simp) (releasing "Alt+Space" .granted) (by decide +kernel)
  exact ⟨_, _, h, hkept.1, hkept.2.2.mpr (by decide +kernel)⟩

/-- The refusal of another chord clears the handler slot under the chord that stays bound. -/
theorem refusal_clears_handler : ∃ s tr,
    run step new [releasing "Ctrl+Space" .granted, releasing "Alt+Space" .refused] = some (s, tr) ∧
    tr.map (·.2) = [.ok none, .error (.notGrabbed "Alt+Space")] ∧ s.bound = some "Ctrl+Space" ∧
    s.registrations = ["Ctrl+Space"] ∧ s.handler = false :=
  ⟨_, _, rfl, by decide +kernel, by decide +kernel, by decide +kernel, by decide +kernel⟩

end Hotkeys
end CriKey.Platform
