import CriKey.Protocol.Wire

/-! Length-delimited framing, and its reassembly from a reader that hands the bytes over in
arbitrary pieces. -/
namespace CriKey.Protocol
open List UInt8

/-- `u32::to_be_bytes`. -/
def toBeBytes (n : Nat) : List UInt8 :=
  [ofNat (n / 2 ^ 24), ofNat (n / 2 ^ 16), ofNat (n / 2 ^ 8), ofNat n]

/-- `u32::from_be_bytes`. -/
def fromBeBytes (bytes : List UInt8) : Nat := bytes.foldl (fun n b => n * 256 + b.toNat) 0

/-- The bytes `write_frame` hands to a writer that accepts everything. -/
def writeFrame (payload : List UInt8) : Except ProtocolError (List UInt8) :=
  if payload = [] then .error (.malformed "zero-length frame")
  else if payload.length > maxFrameBytes then .error (.frameTooLarge payload.length)
  else .ok (toBeBytes payload.length ++ payload)

/-- Successive calls of `write_frame` on one writer. -/
def writeFrames : List (List UInt8) → Except ProtocolError (List UInt8)
  | [] => .ok []
  | payload :: payloads => do
    let frame ← writeFrame payload
    let rest ← writeFrames payloads
    return frame ++ rest

/-! ### The reader under the frames -/

inductive ErrorKind where
  | interrupted
  | timedOut
  | wouldBlock
  | brokenPipe
  | other (text : String)
deriving Repr, DecidableEq

/-- What one stretch of the underlying reader does. `overrun` is a reader that reports more bytes
than it was given room for. -/
inductive Event where
  | bytes (chunk : List UInt8)
  | overrun
  | error (kind : ErrorKind)
deriving Repr, DecidableEq

def mapIo : ErrorKind → ProtocolError
  | .brokenPipe => .closed
  | .timedOut => .timeout
  | .wouldBlock => .timeout
  | .interrupted => .io "operation interrupted"
  | .other text => .io text

inductive Fill where
  | full (got : List UInt8) (source : List Event)
  | ended (got : List UInt8) (source : List Event)
  | overrun (source : List Event)
  | failed (error : ProtocolError) (got : List UInt8) (source : List Event)
deriving Repr

/-- The `while` loop that reads until `need` bytes are there. A reader whose events are used up
is at the end of its stream and answers `Ok(0)` from then on. -/
def fill (need : Nat) : List UInt8 → List Event → Fill
  | got, [] => if got.length < need then .ended got [] else .full got []
  | got, event :: source =>
    if got.length < need then
      match event with
      | .bytes chunk =>
        let room := need - got.length
        if chunk = [] then .ended got source
        else if chunk.length ≤ room then fill need (got ++ chunk) source
        -- the reader keeps what there was no room for
        else .full (got ++ chunk.take room) (.bytes (chunk.drop room) :: source)
      | .overrun => .overrun source
      | .error .interrupted => fill need got source
      | .error kind => .failed (mapIo kind) got source
    else .full got (event :: source)

/-- `lead` and `body` are the parts of the length and of the payload that have been read,
`expected` the length of the payload buffer (0 while it is not allocated). -/
structure FrameReader where
  lead : List UInt8
  expected : Nat
  body : List UInt8
deriving Repr, DecidableEq

def FrameReader.new : FrameReader := ⟨[], 0, []⟩

def FrameReader.reset (_ : FrameReader) : FrameReader := ⟨[], 0, []⟩

/-- What a call of `read_frame` leaves: its answer, the reader state and the underlying reader. -/
abbrev Called := Except ProtocolError (List UInt8) × FrameReader × List Event

/-- The second loop of `read_frame`, once the payload buffer is allocated. -/
def readBody (r : FrameReader) (source : List Event) : Called :=
  match fill r.expected r.body source with
  | .ended _ source => (.error (.malformed "truncated frame body"), r.reset, source)
  | .overrun source => (.error (.malformed "reader returned too many body bytes"), r.reset, source)
  | .failed error body source =>
    (.error error, if error = .timeout then { r with body } else r.reset, source)
  | .full body source => (.ok body, r.reset, source)

def readFrame (r : FrameReader) (source : List Event) : Called :=
  match fill 4 r.lead source with
  | .ended [] source => (.error .closed, { r with lead := [] }, source)
  | .ended (_ :: _) source =>
    (.error (.malformed "truncated frame length prefix"), r.reset, source)
  | .overrun source =>
    (.error (.malformed "reader returned too many prefix bytes"), r.reset, source)
  | .failed error lead source =>
    (.error error, if error = .timeout then { r with lead } else r.reset, source)
  | .full lead source =>
    if r.expected = 0 then
      if fromBeBytes lead = 0 then (.error (.malformed "zero-length frame"), r.reset, source)
      else if fromBeBytes lead > maxFrameBytes then
        (.error (.frameTooLarge (fromBeBytes lead)), r.reset, source)
      else readBody { r with lead, expected := fromBeBytes lead } source
    else readBody { r with lead } source

/-- At most `calls` calls of `read_frame` on one reader, going on after a frame and after a
timeout: the frames handed over and the error that ended the reading. -/
def readAll : Nat → FrameReader → List Event → List (List UInt8) × Option ProtocolError
  | 0, _, _ => ([], none)
  | calls + 1, r, source =>
    match readFrame r source with
    | (.ok payload, r, source) =>
      let (payloads, last) := readAll calls r source
      (payload :: payloads, last)
    | (.error .timeout, r, source) => readAll calls r source
    | (.error error, _, _) => ([], some error)

/-! ### What the reader hands over -/

def Event.carried : Event → List UInt8
  | .bytes chunk => chunk
  | _ => []

def delivered (source : List Event) : List UInt8 := source.flatMap Event.carried

/-- A non-empty chunk, an interruption or a timeout. -/
def Event.Ordinary : Event → Prop
  | .bytes chunk => chunk ≠ []
  | .overrun => False
  | .error kind => kind = .interrupted ∨ mapIo kind = .timeout

def Event.isTimeout : Event → Bool
  | .error kind => mapIo kind == .timeout
  | _ => false

def timeouts (source : List Event) : Nat := source.countP Event.isTimeout

@[simp] lemma delivered_nil : delivered [] = [] := rfl

@[simp] lemma delivered_cons (event : Event) (source : List Event) :
    delivered (event :: source) = event.carried ++ delivered source := rfl

lemma timeouts_cons (event : Event) (source : List Event) :
    timeouts (event :: source) = timeouts source + if event.isTimeout then 1 else 0 :=
  countP_cons

/-- The bytes held and the bytes still to come are the same before and after. -/
structure Carries (got : List UInt8) (source : List Event) (got' : List UInt8)
    (source' : List Event) : Prop where
  same : got' ++ delivered source' = got ++ delivered source
  ordinary : ∀ event ∈ source', event.Ordinary
  timeouts_le : timeouts source' ≤ timeouts source

namespace Carries

variable {got got₁ got₂ : List UInt8} {source source₁ source₂ : List Event}

lemma refl (h : ∀ event ∈ source, event.Ordinary) : Carries got source got source :=
  ⟨rfl, h, le_rfl⟩

lemma trans (h : Carries got source got₁ source₁) (h' : Carries got₁ source₁ got₂ source₂) :
    Carries got source got₂ source₂ :=
  ⟨h'.same.trans h.same, h'.ordinary, h'.timeouts_le.trans h.timeouts_le⟩

lemma take (event : Event) (h : ∀ e ∈ event :: source, e.Ordinary) :
    Carries got (event :: source) (got ++ event.carried) source := by
  refine ⟨by simp, fun e he => h e (mem_cons_of_mem _ he), ?_⟩
  rw [timeouts_cons]
  omega

lemma split (chunk : List UInt8) {room : Nat} (hroom : room < chunk.length)
    (h : ∀ e ∈ Event.bytes chunk :: source, e.Ordinary) :
    Carries got (.bytes chunk :: source) (got ++ chunk.take room)
      (.bytes (chunk.drop room) :: source) := by
  refine ⟨?_, ?_, le_of_eq rfl⟩
  · show got ++ chunk.take room ++ (chunk.drop room ++ delivered source)
      = got ++ (chunk ++ delivered source)
    rw [append_assoc, ← append_assoc (chunk.take room), take_append_drop]
  intro e he
  rcases mem_cons.mp he with rfl | he
  · exact fun hnil => absurd (drop_eq_nil_iff.mp hnil) (by omega)
  · exact h e (mem_cons_of_mem _ he)

end Carries

/-- How a loop of `read_frame` can end over an ordinary schedule. -/
inductive Filled (need : Nat) (got : List UInt8) (source : List Event) : Fill → Prop
  | full {got' source'} : Carries got source got' source' → got'.length = need →
      Filled need got source (.full got' source')
  | ended : (got ++ delivered source).length < need →
      Filled need got source (.ended (got ++ delivered source) [])
  | timeout {got' source'} : Carries got source got' source' → got'.length < need →
      timeouts source' < timeouts source → Filled need got source (.failed .timeout got' source')

lemma Filled.after {need : Nat} {got got₁ : List UInt8} {source source₁ : List Event} {end' : Fill}
    (h : Carries got source got₁ source₁) (h' : Filled need got₁ source₁ end') :
    Filled need got source end' := by
  cases h' with
  | full hc hlen => exact .full (h.trans hc) hlen
  | ended hlen => exact h.same ▸ .ended (h.same ▸ hlen)
  | timeout hc hlen ht => exact .timeout (h.trans hc) hlen (by have := h.timeouts_le; omega)

lemma fill_spec (need : Nat) (got : List UInt8) (source : List Event) (hgot : got.length ≤ need)
    (h : ∀ event ∈ source, event.Ordinary) : Filled need got source (fill need got source) := by
  induction source generalizing got with
  | nil =>
    unfold fill
    split
    case isTrue hlt =>
      have hshort : (got ++ delivered []).length < need := by simpa using hlt
      simpa using Filled.ended hshort
    case isFalse hlt => exact .full (.refl h) (by omega)
  | cons event source ih =>
    have htail : ∀ e ∈ source, e.Ordinary := fun e he => h e (mem_cons_of_mem _ he)
    have hstep : Carries got (event :: source) (got ++ event.carried) source := .take event h
    by_cases hlt : got.length < need
    · cases event with
      | bytes chunk =>
        have hchunk : chunk ≠ [] := h _ mem_cons_self
        simp only [fill, if_pos hlt, if_neg hchunk]
        split
        case isTrue hroom =>
          exact .after hstep (ih _ (by simp [Event.carried]; omega) htail)
        case isFalse hroom => exact .full (.split chunk (by omega) h) (by simp; omega)
      | overrun => exact absurd (h _ mem_cons_self) id
      | error kind =>
        have hnone : Carries got (.error kind :: source) got source := by
          simpa [Event.carried] using hstep
        rcases h _ mem_cons_self with hkind | hkind
        · subst hkind
          simp only [fill, if_pos hlt]
          exact .after hnone (ih _ hgot htail)
        · have hfail : fill need got (.error kind :: source) = .failed .timeout got source := by
            rw [fill.eq_def]
            cases kind <;> simp_all [mapIo]
          rw [hfail]
          exact .timeout hnone hlt (by simp [timeouts_cons, Event.isTimeout, hkind])
    · have hfull : fill need got (event :: source) = .full got (event :: source) := by
        exact if_neg hlt
      rw [hfull]
      exact .full (.refl h) (by omega)

/-! ### One call -/

lemma fromBeBytes_toBeBytes {n : Nat} (h : n ≤ maxFrameBytes) : fromBeBytes (toBeBytes n) = n := by
  have hn : n ≤ 8388608 := h
  simp [fromBeBytes, toBeBytes]
  omega

lemma toBeBytes_fromBeBytes {lead : List UInt8} (h : lead.length = 4) :
    toBeBytes (fromBeBytes lead) = lead := by
  match lead, h with
  | [a, b, c, d], _ =>
    have := a.toNat_lt
    have := b.toNat_lt
    have := c.toNat_lt
    have := d.toNat_lt
    simp only [toBeBytes, fromBeBytes, foldl_cons, foldl_nil, cons.injEq,
      and_true, ← UInt8.toNat_inj, UInt8.toNat_ofNat']
    omega

def frameOf (payload : List UInt8) : List UInt8 := toBeBytes payload.length ++ payload

@[simp] lemma length_toBeBytes (n : Nat) : (toBeBytes n).length = 4 := rfl

lemma length_frameOf (payload : List UInt8) : (frameOf payload).length = 4 + payload.length := by
  simp [frameOf]

def announced (stream : List UInt8) : Nat := fromBeBytes (stream.take 4)

lemma announced_append {lead : List UInt8} (h : lead.length = 4) (rest : List UInt8) :
    announced (lead ++ rest) = fromBeBytes lead := by
  rw [announced, take_left' h]

lemma announced_frameOf {payload : List UInt8} (h : payload.length ≤ maxFrameBytes)
    (rest : List UInt8) : announced (frameOf payload ++ rest) = payload.length := by
  rw [frameOf, append_assoc, announced_append rfl, fromBeBytes_toBeBytes h]

lemma frameOf_append_inj {payload payload' rest rest' : List UInt8}
    (h : payload.length ≤ maxFrameBytes) (h' : payload'.length ≤ maxFrameBytes)
    (heq : frameOf payload ++ rest = frameOf payload' ++ rest') :
    payload = payload' ∧ rest = rest' := by
  have hlen : payload.length = payload'.length := by
    rw [← announced_frameOf h rest, heq, announced_frameOf h' rest']
  simp only [frameOf, hlen, append_assoc, append_cancel_left_eq] at heq
  exact append_inj heq hlen

namespace FrameReader

def pending (r : FrameReader) : List UInt8 := r.lead ++ r.body

/-- A state a timeout can leave: inside the length, or inside an allocated payload. -/
inductive Resumable : FrameReader → Prop
  | lead {lead} : lead.length < 4 → Resumable ⟨lead, 0, []⟩
  | body {lead body} : lead.length = 4 → body.length < fromBeBytes lead →
      fromBeBytes lead ≤ maxFrameBytes → Resumable ⟨lead, fromBeBytes lead, body⟩

lemma resumable_new : new.Resumable := .lead (by simp)

end FrameReader

open FrameReader (Resumable pending)

/-- What a call can answer when `stream` is what was read before together with what is still to
come, and the reader has `waits` timeouts ahead. -/
inductive Answered (stream : List UInt8) (waits : Nat) : Called → Prop
  | frame {payload source} : payload ≠ [] → payload.length ≤ maxFrameBytes →
      frameOf payload ++ delivered source = stream → (∀ event ∈ source, event.Ordinary) →
      timeouts source ≤ waits → Answered stream waits (.ok payload, .new, source)
  | retry {r source} : r.Resumable → r.pending ++ delivered source = stream →
      (∀ event ∈ source, event.Ordinary) → timeouts source < waits →
      Answered stream waits (.error .timeout, r, source)
  | closed {r source} : stream = [] → Answered stream waits (.error .closed, r, source)
  | cutLead {r source} : stream ≠ [] → stream.length < 4 →
      Answered stream waits (.error (.malformed "truncated frame length prefix"), r, source)
  | cutBody {r source} : 4 ≤ stream.length → stream.length < 4 + announced stream →
      Answered stream waits (.error (.malformed "truncated frame body"), r, source)
  | refused {error r source} : 4 ≤ stream.length →
      announced stream = 0 ∨ maxFrameBytes < announced stream → error ≠ .timeout →
      Answered stream waits (.error error, r, source)

variable {source : List Event}

lemma readBody_answered {lead body : List UInt8} {waits : Nat}
    (hlead : lead.length = 4) (hpos : 0 < fromBeBytes lead)
    (hmax : fromBeBytes lead ≤ maxFrameBytes)
    (hbody : body.length ≤ fromBeBytes lead) (h : ∀ event ∈ source, event.Ordinary)
    (hw : timeouts source ≤ waits) : Answered (lead ++ body ++ delivered source) waits
      (readBody ⟨lead, fromBeBytes lead, body⟩ source) := by
  have hfill := fill_spec (fromBeBytes lead) body source hbody h
  unfold readBody
  revert hfill
  generalize fill (fromBeBytes lead) body source = filled
  intro hfill
  cases hfill with
  | full hc hlen =>
    refine .frame ?_ (hlen ▸ hmax) ?_ hc.ordinary (hc.timeouts_le.trans hw)
    · exact ne_nil_of_length_pos (hlen ▸ hpos)
    · rw [frameOf, hlen, toBeBytes_fromBeBytes hlead, append_assoc, hc.same, append_assoc]
  | ended hlen =>
    rw [append_assoc]
    refine .cutBody (by simp [hlead]) ?_
    rw [announced_append hlead, length_append]
    omega
  | timeout hc hlen ht =>
    simp only [if_true]
    refine .retry (.body hlead hlen hmax) ?_ hc.ordinary (by omega)
    rw [pending, append_assoc, hc.same, append_assoc]

lemma readFrame_answered {r : FrameReader} (hr : r.Resumable)
    (h : ∀ event ∈ source, event.Ordinary) :
    Answered (r.pending ++ delivered source) (timeouts source) (readFrame r source) := by
  cases hr with
  | body hlead hbody hmax =>
    rename_i lead body
    have hpos : 0 < fromBeBytes lead := by omega
    -- the length is there already: the first loop does not read
    have hfull : fill 4 lead source = .full lead source := by
      rw [fill.eq_def]
      cases source <;> simp [hlead]
    simp only [readFrame, hfull, if_neg hpos.ne']
    exact readBody_answered hlead hpos hmax hbody.le h le_rfl
  | lead hlead =>
    rename_i lead
    have hfill := fill_spec 4 lead source hlead.le h
    simp only [readFrame, pending, append_nil]
    revert hfill
    generalize fill 4 lead source = filled
    intro hfill
    cases hfill with
    | full hc hlen =>
      rename_i lead' source'
      rw [← hc.same]
      simp only [if_true]
      split
      case isTrue hzero =>
        exact .refused (by simp [hlen]) (.inl (by rw [announced_append hlen, hzero])) (by simp)
      split
      case isTrue hlarge =>
        exact .refused (by simp [hlen]) (.inr (by rw [announced_append hlen]; exact hlarge))
          (by simp)
      case isFalse hzero hlarge =>
        have hempty : ([] : List UInt8).length ≤ fromBeBytes lead' := by simp
        simpa using readBody_answered hlen (Nat.pos_of_ne_zero hzero) (by omega) hempty
          hc.ordinary hc.timeouts_le
    | ended hlen =>
      generalize lead ++ delivered source = stream at hlen
      cases stream with
      | nil => exact .closed rfl
      | cons b stream => exact .cutLead (by simp) hlen
    | timeout hc hlen ht =>
      simp only [if_true]
      exact .retry (.lead hlen) (by rw [pending, append_nil]; exact hc.same) hc.ordinary ht

/-! ### A whole stream -/

/-- The error that ends the reading when the stream stops after `part` of a frame. -/
def truncation (part : List UInt8) : ProtocolError :=
  if part.length < 4 then .malformed "truncated frame length prefix"
  else .malformed "truncated frame body"

/-- `part` is what is left after the last whole frame, and `error` how the reading ends there. -/
inductive Ending : List UInt8 → ProtocolError → Prop
  | clean : Ending [] .closed
  | cut {part payload} : part ≠ [] → part <+: frameOf payload →
      part.length < (frameOf payload).length → payload.length ≤ maxFrameBytes →
      Ending part (truncation part)

lemma announced_of_isPrefix {part payload : List UInt8} (h : part <+: frameOf payload)
    (hfour : 4 ≤ part.length) (hmax : payload.length ≤ maxFrameBytes) :
    announced part = payload.length := by
  obtain ⟨rest, hrest⟩ := h
  have := announced_frameOf hmax []
  rwa [append_nil, ← hrest, announced, take_append_of_le_length hfour] at this

variable {part : List UInt8} {error : ProtocolError}

lemma Ending.announces (h : Ending part error) (hfour : 4 ≤ part.length) :
    part.length < 4 + announced part ∧ announced part ≤ maxFrameBytes := by
  cases h with
  | clean => simp at hfour
  | cut hne hpart hlt hmax =>
    rw [length_frameOf] at hlt
    rw [announced_of_isPrefix hpart hfour hmax]
    exact ⟨hlt, hmax⟩

lemma Ending.error_eq (h : Ending part error) :
    error = if part = [] then .closed else truncation part := by
  cases h with
  | clean => rfl
  | cut hne => rw [if_neg hne]

lemma flatMap_frameOf_cons (payload : List UInt8) (payloads : List (List UInt8))
    (part : List UInt8) :
    (payload :: payloads).flatMap frameOf ++ part
      = frameOf payload ++ (payloads.flatMap frameOf ++ part) := by
  rw [flatMap_cons, append_assoc]

variable {payloads : List (List UInt8)}

lemma readAll_eq (hp : ∀ payload ∈ payloads, payload ≠ [] ∧ payload.length ≤ maxFrameBytes)
    (hend : Ending part error) {r : FrameReader} (hr : r.Resumable)
    (h : ∀ event ∈ source, event.Ordinary)
    (hstream : r.pending ++ delivered source = payloads.flatMap frameOf ++ part) {calls : Nat}
    (hcalls : payloads.length + timeouts source < calls) :
    readAll calls r source = (payloads, some error) := by
  induction calls generalizing payloads r source with
  | zero => omega
  | succ calls ih =>
    have hcall := readFrame_answered hr h
    rw [readAll]
    rw [hstream] at hcall
    revert hcall
    generalize readFrame r source = called
    intro hcall
    cases hcall with
    | frame hne hmax hrest hord hwaits =>
      cases payloads with
      | nil =>
        -- what is left announces more than it holds, so it is no whole frame
        have hlen := congrArg length hrest
        have hann := congrArg announced hrest
        rw [announced_frameOf hmax] at hann
        simp only [flatMap_nil, nil_append, length_append, length_frameOf] at hlen hann
        have := (hend.announces (by omega)).1
        omega
      | cons first payloads =>
        have hfirst := hp first mem_cons_self
        rw [flatMap_frameOf_cons] at hrest
        obtain ⟨rfl, htail⟩ := frameOf_append_inj hmax hfirst.2 hrest
        rw [length_cons] at hcalls
        have := ih (fun q hq => hp q (mem_cons_of_mem _ hq)) FrameReader.resumable_new hord htail
          (by omega)
        simp only [this]
    | retry hr' hrest hord hwaits => exact ih hp hr' hord hrest (by omega)
    | closed hnil =>
      obtain ⟨hnone, rfl⟩ := append_eq_nil_iff.mp hnil
      cases payloads with
      | nil => rw [hend.error_eq, if_pos rfl]
      | cons first payloads => simp [frameOf, toBeBytes] at hnone
    | cutLead hne hshort =>
      cases payloads with
      | nil =>
        rw [flatMap_nil, nil_append] at hne hshort
        rw [hend.error_eq, if_neg hne, truncation, if_pos hshort]
      | cons first payloads =>
        rw [flatMap_frameOf_cons, length_append, length_frameOf] at hshort
        omega
    | cutBody hfour hshort =>
      cases payloads with
      | nil =>
        rw [flatMap_nil, nil_append] at hfour hshort
        have hne : part ≠ [] := ne_nil_of_length_pos (by omega)
        rw [hend.error_eq, if_neg hne, truncation, if_neg (by omega)]
      | cons first payloads =>
        rw [flatMap_frameOf_cons, announced_frameOf (hp first mem_cons_self).2,
          length_append, length_frameOf] at hshort
        omega
    | refused hfour hann _ =>
      cases payloads with
      | nil =>
        rw [flatMap_nil, nil_append] at hfour hann
        have := hend.announces hfour
        omega
      | cons first payloads =>
        obtain ⟨hne, hmax⟩ := hp first mem_cons_self
        rw [flatMap_frameOf_cons, announced_frameOf hmax] at hann
        have := length_pos_of_ne_nil hne
        omega

lemma writeFrame_eq_ok {payload : List UInt8} (hne : payload ≠ [])
    (hmax : payload.length ≤ maxFrameBytes) : writeFrame payload = .ok (frameOf payload) := by
  rw [writeFrame, if_neg hne, if_neg (by omega), frameOf]

lemma of_writeFrame_eq_ok {payload frame : List UInt8} (h : writeFrame payload = .ok frame) :
    payload.length ≤ maxFrameBytes ∧ frame = frameOf payload := by
  rw [writeFrame] at h
  split at h
  · exact absurd h (by simp)
  split at h
  · exact absurd h (by simp)
  case isFalse hmax => exact ⟨by omega, (Except.ok.inj h).symm⟩

lemma writeFrames_eq_ok (hp : ∀ payload ∈ payloads, payload ≠ [] ∧ payload.length ≤ maxFrameBytes) :
    writeFrames payloads = .ok (payloads.flatMap frameOf) := by
  induction payloads with
  | nil => rfl
  | cons payload payloads ih =>
    obtain ⟨hne, hmax⟩ := hp payload mem_cons_self
    rw [writeFrames, writeFrame_eq_ok hne hmax, ih fun q hq => hp q (mem_cons_of_mem _ hq)]
    rfl

/-- However the bytes of written frames are cut into chunks, and whatever interruptions and
timeouts come between, one reader called again after each timeout hands over exactly the payloads
and then reports the end; a stream that stops inside a further frame gives the payloads before it
and then a malformed frame. -/
theorem frames_reassembled (payloads : List (List UInt8))
    (hp : ∀ payload ∈ payloads, payload ≠ [] ∧ payload.length ≤ maxFrameBytes) :
    ∃ stream, writeFrames payloads = .ok stream ∧
      ∀ source : List Event, (∀ event ∈ source, event.Ordinary) →
        ∀ calls, payloads.length + timeouts source < calls → (delivered source = stream →
            readAll calls .new source = (payloads, some .closed)) ∧
          ∀ payload frame part, writeFrame payload = .ok frame → part <+: frame → part ≠ [] →
            part ≠ frame → delivered source = stream ++ part →
            readAll calls .new source = (payloads, some (truncation part)) := by
  refine ⟨_, writeFrames_eq_ok hp, fun source h calls hcalls => ⟨?_, ?_⟩⟩
  · intro hall
    refine readAll_eq hp .clean FrameReader.resumable_new h ?_ hcalls
    rw [hall, append_nil]
    rfl
  · intro payload frame part hwrite hpart hne hcut hall
    obtain ⟨hmax, rfl⟩ := of_writeFrame_eq_ok hwrite
    have hlt : part.length < (frameOf payload).length :=
      lt_of_le_of_ne hpart.length_le fun heq => hcut (hpart.eq_of_length heq)
    exact readAll_eq hp (.cut hne hpart hlt hmax) FrameReader.resumable_new h hall hcalls

/-- Two one-byte frames, the second cut in its body, with a timeout inside each length. -/
theorem frames_reassembled_split :
    readAll 4 .new [.bytes [0, 0], .error .timedOut, .bytes [0, 1, 7, 0], .error .wouldBlock,
      .error .interrupted, .bytes [0, 0, 2, 5]] =
        ([[7]], some (.malformed "truncated frame body")) := by
  obtain ⟨stream, hwrite, h⟩ := frames_reassembled [[7]] (by decide)
  have hstream : stream = [0, 0, 0, 1, 7] := (Except.ok.inj (hwrite.symm.trans rfl))
  refine (h _ ?_ 4 (by decide)).2 [5, 6] [0, 0, 0, 2, 5, 6] [0, 0, 0, 2, 5] rfl (by decide)
    (by decide) (by decide) (by rw [hstream]; rfl)
  simp [Event.Ordinary, mapIo]

end CriKey.Protocol
