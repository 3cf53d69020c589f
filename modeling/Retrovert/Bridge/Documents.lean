import Mathlib.Data.List.Basic
import Mathlib.Algebra.Group.Nat.Defs
import Mathlib.Logic.Function.Basic
import Retrovert.Library.Disk
import Retrovert.Library.Runs

/-!
# Documents between the worker and the shell

What is not per frame, the library, the playing song and the queue, goes to the shell as
documents under one lock and their revisions under another. The worker replaces a document and
then moves its revision; the shell polls the revisions, and reads again each document whose
revision has moved, into a buffer that it grows when the text does not fit. No lock is held from
one of these steps to the next, so a text may be replaced while it is read, and what the shell
makes of it then may be of the old text, of the new one, or of a part of it.

It does not stay so. Whatever was replaced moves its revision later than the poll that led to
the read, so a shell that rests and has seen the newest revision shows the document as it is
(`documents_settle`), and one poll after the last change brings it there
(`a_poll_shows_every_document`).
-/

set_option autoImplicit false

namespace Retrovert.Bridge

open Runs

/-! ## The documents -/

/-- The JSON documents the shell reads at its own pace. -/
inductive Document where
  | library
  | track
  | queue
deriving DecidableEq, Repr

namespace Document

/-- A document as the C ABI spells it. -/
def raw : Document → UInt32
  | .library => 0
  | .track => 1
  | .queue => 2

/-- The document a raw discriminant names, if any. -/
def fromU32 (raw : UInt32) : Option Document :=
  if raw = 0 then some .library
  else if raw = 1 then some .track
  else if raw = 2 then some .queue
  else none

@[simp] theorem fromU32_raw (which : Document) : fromU32 which.raw = some which := by
  cases which <;> rfl

end Document

/-- The texts of the documents. -/
structure Docs where
  library : Bytes := []
  track : Bytes := []
  queue : Bytes := []

namespace Docs

def get (docs : Docs) : Document → Bytes
  | .library => docs.library
  | .track => docs.track
  | .queue => docs.queue

def set (docs : Docs) (which : Document) (text : Bytes) : Docs :=
  match which with
  | .library => { docs with library := text }
  | .track => { docs with track := text }
  | .queue => { docs with queue := text }

@[simp] theorem get_set_self (docs : Docs) (which : Document) (text : Bytes) :
    (docs.set which text).get which = text := by
  cases which <;> rfl

theorem get_set_of_ne (docs : Docs) {which other : Document} (apart : other ≠ which)
    (text : Bytes) : (docs.set which text).get other = docs.get other := by
  cases which <;> cases other <;> first | rfl | exact absurd rfl apart

end Docs

/-! ## The C ABI -/

/-- A length as a 32-bit count, which stays at the largest one. -/
def toU32 (length : Nat) : UInt32 := UInt32.ofNat (min length (2 ^ 32 - 1))

/-- Copy a text into a buffer, ended by a zero and cut to what there is room for. The first
`capacity` bytes of the buffer may be written. -/
def writeText (text out : Bytes) (capacity : UInt32) : Bytes × UInt32 :=
  if capacity = 0 then (out, 0)
  else
    let n := min text.length (capacity.toNat - 1)
    (text.take n ++ 0 :: out.drop (n + 1), toU32 n)

/-- Copy a document into a buffer, and answer how long the document is. -/
def document (docs : Docs) (which : UInt32) (out : Bytes) (capacity : UInt32) : Bytes × UInt32 :=
  match Document.fromU32 which with
  | none => ((writeText [] out capacity).1, 0)
  | some which =>
      ((writeText (docs.get which) out capacity).1, toU32 (docs.get which).length)

/-! ## The shell's session -/

/-- Where the session is with the documents it has to read again. -/
inductive Reading where
  | resting
  | asks (which : Document) (rest : List Document)
  /-- The text did not fit, and the buffer was grown to what was needed. -/
  | asksAgain (which : Document) (rest : List Document)
deriving DecidableEq

/-- What is to be read yet. -/
def Reading.pending : Reading → List Document
  | .resting => []
  | .asks which rest | .asksAgain which rest => which :: rest

def Reading.begin : List Document → Reading
  | [] => .resting
  | which :: rest => .asks which rest

/-- The session: the revisions it polled last, what it shows of each document, and the buffer
it reads into. -/
structure Session (Value : Type) where
  revs : Document → UInt64
  shown : Document → Value
  buffer : Bytes
  reading : Reading

/-- How a text is shown: what it parses as, and nothing for no text. -/
structure Parser (Value : Type) where
  nothing : Value
  parse : Bytes → Value

namespace Parser

variable {Value : Type}

def view (parser : Parser Value) (text : Bytes) : Value :=
  if text.length = 0 then parser.nothing else parser.parse text

end Parser

namespace Session

variable {Value : Type}

/-- A session before its first poll. -/
def new (parser : Parser Value) (capacity : Nat) : Session Value where
  revs _ := 0
  shown _ := parser.nothing
  buffer := List.replicate capacity 0
  reading := .resting

/-- How large the buffer of a session is at first. -/
def documentInitialCapacity : Nat := 64 * 1024

/-- Take the revisions, and read what has moved. -/
def poll (session : Session Value) (next : Document → UInt64) : Session Value :=
  { session with
      revs := next
      reading := .begin
        ([.library, .track, .queue].filter fun which => next which ≠ session.revs which) }

/-- Show what was read of a document that is so long. -/
def settle (parser : Parser Value) (session : Session Value) (which : Document)
    (rest : List Document) (needed : UInt32) : Session Value :=
  let length := min needed.toNat (session.buffer.length - 1)
  { session with
      shown := Function.update session.shown which (parser.view (session.buffer.take length))
      reading := .begin rest }

/-- Ask for a document, once or, where its text did not fit, twice. -/
def ask (parser : Parser Value) (session : Session Value) (docs : Docs) : Option (Session Value) :=
  match session.reading with
  | .resting => none
  | .asks which rest =>
      let answer := document docs which.raw session.buffer (UInt32.ofNat session.buffer.length)
      let needed := answer.2
      if (needed + 1).toNat > answer.1.length then
        some { session with
          buffer := answer.1 ++ List.replicate ((needed + 1).toNat - answer.1.length) 0
          reading := .asksAgain which rest }
      else
        some (settle parser { session with buffer := answer.1 } which rest needed)
  | .asksAgain which rest =>
      let answer := document docs which.raw session.buffer (UInt32.ofNat session.buffer.length)
      some (settle parser { session with buffer := answer.1 } which rest answer.2)

end Session

/-! ## The worker and the session -/

/-- The documents and their revisions, which of them the worker has replaced and not announced,
and the session. -/
structure Shell (Value : Type) where
  docs : Docs
  revs : Document → UInt64
  replaced : Option Document
  session : Session Value

/-- A hold of a lock, by the worker or the session. -/
inductive Exchange where
  | replace (which : Document) (text : Bytes)
  | announce (which : Document)
  | poll
  | ask

namespace Exchange

/-- The revision of a document moves. -/
def announces (which : Document) : Exchange → Bool
  | .announce announced => decide (announced = which)
  | .replace _ _ | .poll | .ask => false

end Exchange

/-- How often the revision of a document has moved. -/
def announcements (which : Document) (exchanges : List Exchange) : Nat :=
  exchanges.countP (Exchange.announces which)

namespace Shell

variable {Value : Type}

def start (parser : Parser Value) (capacity : Nat) : Shell Value where
  docs := {}
  revs _ := 0
  replaced := none
  session := .new parser capacity

def step (parser : Parser Value) (shell : Shell Value) : Exchange → Option (Shell Value)
  | .replace which text =>
      if shell.replaced = none then
        some { shell with docs := shell.docs.set which text, replaced := some which }
      else none
  | .announce which =>
      if shell.replaced = some which then
        some { shell with
          revs := Function.update shell.revs which (shell.revs which + 1)
          replaced := none }
      else none
  | .poll =>
      if shell.session.reading = .resting then
        some { shell with session := shell.session.poll shell.revs }
      else none
  | .ask => (shell.session.ask parser shell.docs).map fun session => { shell with session }

/-- A text is short enough for the shell to count its bytes in. -/
def Countable (_ : Shell Value) : Exchange → Prop
  | .replace _ text => text.length < 2 ^ 31
  | .announce _ | .poll | .ask => True

instance (shell : Shell Value) (exchange : Exchange) : Decidable (shell.Countable exchange) :=
  match exchange with
  | .replace _ text => inferInstanceAs (Decidable (text.length < 2 ^ 31))
  | .announce _ | .poll | .ask => inferInstanceAs (Decidable True)

end Shell

/-! ## A read -/

theorem toNat_toU32 {length : Nat} (fits : length < 2 ^ 32) : (toU32 length).toNat = length := by
  rw [toU32, Nat.min_eq_left (by omega)]
  exact UInt32.toNat_ofNat_of_lt' fits

theorem length_writeText (text out : Bytes) {capacity : UInt32}
    (room : capacity.toNat ≤ out.length) : (writeText text out capacity).1.length = out.length := by
  unfold writeText
  split
  · rfl
  · rename_i some
    have positive : 0 < capacity.toNat := by
      rw [Nat.pos_iff_ne_zero]
      intro zero
      exact some (UInt32.toNat_inj.mp zero)
    simp only [List.length_append, List.length_take, List.length_cons, List.length_drop]
    omega

/-- A text that the buffer has room for is copied whole. -/
theorem take_writeText {text out : Bytes} {capacity : UInt32}
    (fits : text.length < capacity.toNat) :
    (writeText text out capacity).1.take text.length = text := by
  have some : capacity ≠ 0 := by
    rintro rfl
    simp at fits
  rw [writeText, if_neg some, Nat.min_eq_left (by omega)]
  simp only [List.take_length]
  exact List.take_left

/-- What the session asks for it is answered with, in a buffer of the same size. -/
theorem document_raw (docs : Docs) (which : Document) (out : Bytes) (capacity : UInt32) :
    document docs which.raw out capacity =
      ((writeText (docs.get which) out capacity).1, toU32 (docs.get which).length) := by
  simp [document]

namespace Session

variable {Value : Type} {parser : Parser Value}

/-- A text read into a buffer that has room for it is shown as it is. -/
theorem settle_whole {session : Session Value} {docs : Docs} {which : Document} {out : Bytes}
    (small : out.length < 2 ^ 32) (fits : (docs.get which).length < out.length)
    (read : session.buffer = (document docs which.raw out (UInt32.ofNat out.length)).1)
    (rest : List Document) :
    (settle parser session which rest
        (document docs which.raw out (UInt32.ofNat out.length)).2).shown which =
      parser.view (docs.get which) := by
  have capacity : (UInt32.ofNat out.length).toNat = out.length :=
    UInt32.toNat_ofNat_of_lt' small
  rw [document_raw] at read
  have length : min (toU32 (docs.get which).length).toNat (session.buffer.length - 1) =
      (docs.get which).length := by
    rw [read, length_writeText _ _ (Nat.le_of_eq capacity), toNat_toU32 (by omega)]
    omega
  have whole : session.buffer.take (docs.get which).length = docs.get which := by
    rw [read]
    exact take_writeText (by omega)
  rw [document_raw]
  simp only [settle, length, whole, Function.update_self]

theorem mem_pending_begin {which : Document} {rest : List Document} :
    which ∈ (Reading.begin rest).pending ↔ which ∈ rest := by
  cases rest <;> rfl

theorem begin_ne_asksAgain (rest : List Document) (which : Document) (later : List Document) :
    Reading.begin rest ≠ .asksAgain which later := by
  cases rest <;> intro same <;> cases same

end Session

/-! ## What the session shows -/

namespace Shell

variable {Value : Type} {parser : Parser Value}

/-- A document is shown as it is or has yet to be read, and a second read of it has room. -/
structure Current (parser : Parser Value) (shell : Shell Value) (which : Document) : Prop where
  shown : which ∉ shell.session.reading.pending →
    shell.session.shown which = parser.view (shell.docs.get which)
  room : ∀ rest, shell.session.reading = .asksAgain which rest →
    (shell.docs.get which).length < shell.session.buffer.length

/-- The session has seen so many revisions of a document, and if those are all, and none is on
its way, the document is current. -/
structure Follows (parser : Parser Value) (exchanges : List Exchange) (shell : Shell Value)
    (which : Document) : Prop where
  counted : shell.revs which = UInt64.ofNat (announcements which exchanges)
  seen : ∃ seen ≤ announcements which exchanges,
    shell.session.revs which = UInt64.ofNat seen ∧
      (seen = announcements which exchanges → shell.replaced ≠ some which →
        shell.Current parser which)

/-- The buffer has room for a text's end, and the sizes of both can be counted. -/
structure Bounded (shell : Shell Value) : Prop where
  positive : 0 < shell.session.buffer.length
  small : shell.session.buffer.length ≤ 2 ^ 31
  texts : ∀ which, (shell.docs.get which).length < 2 ^ 31

/-- What an ask leads to: the document is shown, as it is if there was room for it, or the
buffer is grown to the length that was answered. -/
inductive Asked (parser : Parser Value) (docs : Docs) (before after : Session Value) : Prop where
  | shows {which : Document} {rest : List Document}
      (pending : before.reading.pending = which :: rest)
      (shown : (docs.get which).length < before.buffer.length →
        after.shown which = parser.view (docs.get which))
      (room : before.reading = .asks which rest → (docs.get which).length < before.buffer.length)
      (others : ∀ other, other ≠ which → after.shown other = before.shown other)
      (reading : after.reading = .begin rest) (buffer : after.buffer.length = before.buffer.length)
  | grows {which : Document} {rest : List Document} (asks : before.reading = .asks which rest)
      (shown : after.shown = before.shown) (reading : after.reading = .asksAgain which rest)
      (buffer : after.buffer.length = (docs.get which).length + 1)

theorem ask_asked {shell : Shell Value} (bounded : shell.Bounded) {after : Session Value}
    (asked : shell.session.ask parser shell.docs = some after) :
    after.revs = shell.session.revs ∧ Asked parser shell.docs shell.session after := by
  have small : shell.session.buffer.length < 2 ^ 32 := by
    have := bounded.small
    omega
  have capacity : (UInt32.ofNat shell.session.buffer.length).toNat = shell.session.buffer.length :=
    UInt32.toNat_ofNat_of_lt' small
  have settles : ∀ which rest,
      let answer := document shell.docs which.raw shell.session.buffer
        (UInt32.ofNat shell.session.buffer.length)
      ∀ other, other ≠ which →
        (Session.settle parser { shell.session with buffer := answer.1 } which rest
          answer.2).shown other = shell.session.shown other := by
    intro which rest answer other apart
    exact Function.update_of_ne apart _ _
  have sized : ∀ which : Document, (document shell.docs which.raw shell.session.buffer
      (UInt32.ofNat shell.session.buffer.length)).1.length = shell.session.buffer.length := by
    intro which
    rw [document_raw]
    exact length_writeText _ _ (Nat.le_of_eq capacity)
  unfold Session.ask at asked
  cases stage : shell.session.reading with
  | resting =>
      rw [stage] at asked
      cases asked
  | asks which rest =>
      rw [stage] at asked
      have bound := bounded.texts which
      have needed : ((document shell.docs which.raw shell.session.buffer
          (UInt32.ofNat shell.session.buffer.length)).2 + 1).toNat =
            (shell.docs.get which).length + 1 := by
        rw [document_raw, UInt32.toNat_add, toNat_toU32 (by omega)]
        exact Nat.mod_eq_of_lt (by simp; omega)
      simp only [needed, sized] at asked
      split at asked
      · rename_i grows
        cases asked
        refine ⟨rfl, .grows stage rfl rfl ?_⟩
        simp only [List.length_append, List.length_replicate, sized]
        omega
      · rename_i fits
        cases asked
        refine ⟨rfl, .shows (by rw [stage]; rfl) (fun room => ?_) (fun _ => by omega)
          (settles which rest) rfl (sized which)⟩
        exact Session.settle_whole small room rfl _
  | asksAgain which rest =>
      rw [stage] at asked
      cases asked
      refine ⟨rfl, .shows (by rw [stage]; rfl) (fun room => ?_)
        (fun asks => by rw [stage] at asks; cases asks) (settles which rest) rfl (sized which)⟩
      exact Session.settle_whole small room rfl _

/-- Fewer revisions than there are numbers for them have a number each. -/
theorem revision_injective {first second : Nat} (few : first < 2 ^ 64) (fewer : second < 2 ^ 64)
    (same : UInt64.ofNat first = UInt64.ofNat second) : first = second := by
  have numbers := congrArg UInt64.toNat same
  rwa [UInt64.toNat_ofNat_of_lt' few, UInt64.toNat_ofNat_of_lt' fewer] at numbers

/-! ### Over a step -/

section Step

variable {before after : Shell Value} {exchanges : List Exchange}

theorem bounded_step {exchange : Exchange} (bounded : before.Bounded)
    (countable : before.Countable exchange)
    (stepped : before.step parser exchange = some after) : after.Bounded := by
  cases exchange with
  | replace which text =>
      simp only [step, Option.ite_none_right_eq_some, Option.some.injEq] at stepped
      obtain ⟨-, rfl⟩ := stepped
      refine ⟨bounded.positive, bounded.small, ?_⟩
      intro other
      by_cases same : other = which
      · rw [same, Docs.get_set_self]
        exact countable
      · rw [Docs.get_set_of_ne _ same]
        exact bounded.texts other
  | announce which =>
      simp only [step, Option.ite_none_right_eq_some, Option.some.injEq] at stepped
      obtain ⟨-, rfl⟩ := stepped
      exact ⟨bounded.positive, bounded.small, bounded.texts⟩
  | poll =>
      simp only [step, Option.ite_none_right_eq_some, Option.some.injEq] at stepped
      obtain ⟨-, rfl⟩ := stepped
      exact ⟨bounded.positive, bounded.small, bounded.texts⟩
  | ask =>
      simp only [step, Option.map_eq_some_iff] at stepped
      obtain ⟨session, asked, rfl⟩ := stepped
      have size : session.buffer.length = before.session.buffer.length ∨
          ∃ which, session.buffer.length = (before.docs.get which).length + 1 := by
        cases (ask_asked bounded asked).2 with
        | shows _ _ _ _ _ buffer => exact .inl buffer
        | grows _ _ _ buffer => exact .inr ⟨_, buffer⟩
      refine ⟨?_, ?_, bounded.texts⟩
      · have := bounded.positive
        rcases size with same | ⟨_, grown⟩ <;> dsimp only <;> omega
      · have := bounded.small
        rcases size with same | ⟨which, grown⟩
        · dsimp only
          omega
        · have := bounded.texts which
          dsimp only
          omega

theorem announcements_concat (which : Document) (exchange : Exchange) :
    announcements which (exchanges ++ [exchange]) =
      announcements which exchanges + if exchange.announces which then 1 else 0 := by
  rw [announcements, List.countP_append, List.countP_singleton]
  rfl

/-- A step that announces nothing of a document, and shows it as it was, follows it still. -/
theorem Follows.congr {which : Document} {exchange : Exchange}
    (follows : Follows parser exchanges before which)
    (silent : exchange.announces which = false) (revs : after.revs which = before.revs which)
    (seen : after.session.revs which = before.session.revs which)
    (current : after.replaced ≠ some which →
      before.replaced ≠ some which ∧
        (before.Current parser which → after.Current parser which)) :
    Follows parser (exchanges ++ [exchange]) after which := by
  have count : announcements which (exchanges ++ [exchange]) = announcements which exchanges := by
    rw [announcements_concat, silent]
    rfl
  obtain ⟨counted, number, bound, polled, shows⟩ := follows
  refine ⟨?_, number, ?_, ?_, ?_⟩
  · rw [count, revs, counted]
  · rw [count]
    exact bound
  · rw [seen, polled]
  · rw [count]
    intro all quiet
    obtain ⟨calm, stays⟩ := current quiet
    exact stays (shows all calm)

theorem follows_replace {which replaced : Document} {text : Bytes}
    (follows : Follows parser exchanges before which)
    (stepped : before.step parser (.replace replaced text) = some after) :
    Follows parser (exchanges ++ [.replace replaced text]) after which := by
  simp only [step, Option.ite_none_right_eq_some, Option.some.injEq] at stepped
  obtain ⟨quiet, rfl⟩ := stepped
  refine follows.congr rfl rfl rfl ?_
  intro apart
  have other : which ≠ replaced := by
    rintro rfl
    exact apart rfl
  refine ⟨by simp [quiet], ?_⟩
  rintro ⟨shown, room⟩
  refine ⟨?_, ?_⟩
  · rw [Docs.get_set_of_ne _ other]
    exact shown
  · rw [Docs.get_set_of_ne _ other]
    exact room

theorem follows_announce {which announced : Document}
    (follows : Follows parser exchanges before which)
    (stepped : before.step parser (.announce announced) = some after) :
    Follows parser (exchanges ++ [.announce announced]) after which := by
  simp only [step, Option.ite_none_right_eq_some, Option.some.injEq] at stepped
  obtain ⟨replaced, rfl⟩ := stepped
  by_cases same : announced = which
  · subst same
    have count : announcements announced (exchanges ++ [.announce announced]) =
        announcements announced exchanges + 1 := by
      rw [announcements_concat]
      simp [Exchange.announces]
    obtain ⟨counted, number, bound, polled, -⟩ := follows
    refine ⟨?_, number, by omega, polled, by omega⟩
    simp only [count, Function.update_self, counted]
    exact (UInt64.ofNat_add _ 1).symm
  · refine follows.congr (by simp [Exchange.announces, same])
      (Function.update_of_ne (Ne.symm same) _ _) rfl ?_
    intro _
    refine ⟨?_, fun current => ⟨current.shown, current.room⟩⟩
    rw [replaced]
    intro other
    exact same (Option.some.inj other)

/-- A poll has seen all revisions there are. What has not moved since the last is current
already, and what has moved is to be read. -/
theorem follows_poll {which : Document} (few : announcements which exchanges < 2 ^ 64)
    (follows : Follows parser exchanges before which)
    (stepped : before.step parser .poll = some after) :
    Follows parser (exchanges ++ [.poll]) after which := by
  simp only [step, Option.ite_none_right_eq_some, Option.some.injEq] at stepped
  obtain ⟨rests, rfl⟩ := stepped
  have count : announcements which (exchanges ++ [.poll]) = announcements which exchanges := by
    rw [announcements_concat]
    rfl
  obtain ⟨counted, number, bound, polled, shows⟩ := follows
  refine ⟨by rw [count]; exact counted, announcements which exchanges, Nat.le_of_eq count.symm,
    counted, ?_⟩
  intro _ quiet
  refine ⟨?_, fun rest asks => absurd asks (Session.begin_ne_asksAgain _ _ _)⟩
  intro unread
  have same : before.revs which = before.session.revs which := by
    by_contra moved
    refine unread (Session.mem_pending_begin.mpr (List.mem_filter.mpr ⟨?_, by simpa using moved⟩))
    cases which <;> simp
  have all : number = announcements which exchanges := by
    rw [counted, polled] at same
    exact (revision_injective few (by omega) same).symm
  refine (shows all quiet).shown ?_
  rw [rests]
  exact List.not_mem_nil

theorem follows_ask {which : Document} (bounded : before.Bounded)
    (follows : Follows parser exchanges before which)
    (stepped : before.step parser .ask = some after) :
    Follows parser (exchanges ++ [.ask]) after which := by
  simp only [step, Option.map_eq_some_iff] at stepped
  obtain ⟨session, asked, rfl⟩ := stepped
  obtain ⟨revs, asked⟩ := ask_asked bounded asked
  refine follows.congr rfl rfl (by rw [revs]) ?_
  intro quiet
  refine ⟨quiet, ?_⟩
  rintro ⟨shown, room⟩
  cases asked with
  | @shows read rest pending whole fits others reading buffer =>
      refine ⟨?_, fun later asks => ?_⟩
      · dsimp only
        rw [reading, Session.mem_pending_begin]
        intro unread
        by_cases same : which = read
        · subst same
          refine whole ?_
          cases stage : before.session.reading with
          | resting => simp [stage, Reading.pending] at pending
          | asks first later =>
              simp only [stage, Reading.pending, List.cons.injEq] at pending
              obtain ⟨rfl, rfl⟩ := pending
              exact fits stage
          | asksAgain first later =>
              simp only [stage, Reading.pending, List.cons.injEq] at pending
              obtain ⟨rfl, rfl⟩ := pending
              exact room later stage
        · rw [others which same]
          refine shown ?_
          rw [pending, List.mem_cons, not_or]
          exact ⟨same, unread⟩
      · dsimp only at asks
        rw [reading] at asks
        exact absurd asks (Session.begin_ne_asksAgain _ _ _)
  | @grows read rest asks kept reading buffer =>
      refine ⟨?_, fun later again => ?_⟩
      · dsimp only
        rw [reading, kept]
        intro unread
        refine shown ?_
        rw [asks]
        exact unread
      · dsimp only at again ⊢
        rw [reading, Reading.asksAgain.injEq] at again
        rw [buffer, again.1]
        exact Nat.lt_succ_self _

end Step

/-! ### Over a run -/

theorem bounded_start {capacity : Nat} (positive : 0 < capacity) (small : capacity ≤ 2 ^ 31) :
    (start parser capacity).Bounded := by
  refine ⟨?_, ?_, ?_⟩
  · simpa [start, Session.new] using positive
  · simpa [start, Session.new] using small
  · intro which
    cases which <;> simp [start, Docs.get]

theorem follows_start (capacity : Nat) (which : Document) :
    Follows parser [] (start parser capacity) which := by
  refine ⟨rfl, 0, Nat.le_refl _, rfl, ?_⟩
  intro _ _
  refine ⟨?_, ?_⟩
  · intro _
    cases which <;> simp [start, Docs.get, Session.new, Parser.view]
  · intro rest again
    cases again

theorem follows_run {capacity : Nat} (positive : 0 < capacity) (small : capacity ≤ 2 ^ 31)
    {exchanges : List Exchange} {shell : Shell Value}
    (run : Trace (step parser) Countable (start parser capacity) exchanges shell) :
    shell.Bounded ∧ ∀ which, announcements which exchanges < 2 ^ 64 →
      Follows parser exchanges shell which := by
  refine run.invariant (fun exchanges shell => shell.Bounded ∧
    ∀ which, announcements which exchanges < 2 ^ 64 → Follows parser exchanges shell which) ?_
    ⟨bounded_start positive small, fun which _ => follows_start capacity which⟩
  rintro exchanges before exchange after countable stepped ⟨bounded, follows⟩
  refine ⟨bounded_step bounded countable stepped, ?_⟩
  intro which few
  have fewer : announcements which exchanges < 2 ^ 64 := by
    rw [announcements_concat] at few
    omega
  cases exchange with
  | replace replaced text => exact follows_replace (follows which fewer) stepped
  | announce announced => exact follows_announce (follows which fewer) stepped
  | poll => exact follows_poll fewer (follows which fewer) stepped
  | ask => exact follows_ask bounded (follows which fewer) stepped

/-- **A session that rests, and has seen the newest revision of a document, shows it as it
is**, unless the worker has replaced it since and is about to say so. -/
theorem documents_settle {capacity : Nat} (positive : 0 < capacity) (small : capacity ≤ 2 ^ 31)
    {exchanges : List Exchange} {shell : Shell Value}
    (run : Trace (step parser) Countable (start parser capacity) exchanges shell)
    (rests : shell.session.reading = .resting) {which : Document}
    (few : announcements which exchanges < 2 ^ 64) (quiet : shell.replaced ≠ some which)
    (newest : shell.session.revs which = shell.revs which) :
    shell.session.shown which = parser.view (shell.docs.get which) := by
  obtain ⟨counted, number, bound, polled, shows⟩ :=
    (follows_run positive small run).2 which few
  have all : number = announcements which exchanges := by
    rw [counted, polled] at newest
    exact revision_injective (by omega) few newest
  refine (shows all quiet).shown ?_
  rw [rests]
  exact List.not_mem_nil

/-- How many times a session that reads still asks at most. -/
def remaining : Reading → Nat
  | .resting => 0
  | .asks _ rest => 2 * rest.length + 2
  | .asksAgain _ rest => 2 * rest.length + 1

theorem remaining_begin (rest : List Document) : remaining (.begin rest) = 2 * rest.length := by
  cases rest <;> rfl

/-- An ask brings a session that reads closer to its rest. -/
theorem ask_remaining {shell : Shell Value} (bounded : shell.Bounded)
    (reads : shell.session.reading ≠ .resting) :
    ∃ after, shell.step parser .ask = some after ∧
      remaining after.session.reading < remaining shell.session.reading ∧
      after.session.revs = shell.session.revs ∧ after.revs = shell.revs ∧
      after.docs = shell.docs ∧ after.replaced = shell.replaced := by
  obtain ⟨session, asked⟩ : ∃ session, shell.session.ask parser shell.docs = some session := by
    rw [← Option.isSome_iff_exists]
    unfold Session.ask
    cases stage : shell.session.reading with
    | resting => exact absurd stage reads
    | asks which rest =>
        dsimp only
        split <;> rfl
    | asksAgain which rest => rfl
  refine ⟨{ shell with session }, by simp [step, asked], ?_, (ask_asked bounded asked).1,
    rfl, rfl, rfl⟩
  cases (ask_asked bounded asked).2 with
  | shows pending _ _ _ reading _ =>
      dsimp only
      rw [reading, remaining_begin]
      cases stage : shell.session.reading with
      | resting => exact absurd stage reads
      | asks first later =>
          simp only [stage, Reading.pending, List.cons.injEq] at pending
          simp [remaining, pending.2]
      | asksAgain first later =>
          simp only [stage, Reading.pending, List.cons.injEq] at pending
          simp [remaining, pending.2]
  | grows asks _ reading _ =>
      dsimp only
      rw [reading, asks]
      simp [remaining]

/-- A session left alone comes to rest, and takes no revision on the way there. -/
theorem comes_to_rest {capacity : Nat} (positive : 0 < capacity) (small : capacity ≤ 2 ^ 31)
    {exchanges : List Exchange} {shell : Shell Value}
    (run : Trace (step parser) Countable (start parser capacity) exchanges shell) :
    ∃ asks ≤ remaining shell.session.reading, ∃ rested,
      Trace (step parser) Countable (start parser capacity)
        (exchanges ++ List.replicate asks .ask) rested ∧
      rested.session.reading = .resting ∧ rested.session.revs = shell.session.revs ∧
      rested.revs = shell.revs ∧ rested.docs = shell.docs ∧ rested.replaced = shell.replaced := by
  induction left : remaining shell.session.reading using Nat.strongRecOn
    generalizing exchanges shell with
  | ind left ih =>
      by_cases rests : shell.session.reading = .resting
      · exact ⟨0, Nat.zero_le _, shell, by simpa using run, rests, rfl, rfl, rfl, rfl⟩
      · obtain ⟨after, stepped, closer, seen, revs, docs, replaced⟩ :=
          @ask_remaining _ parser _ (follows_run positive small run).1 rests
        obtain ⟨asks, bound, rested, later, rest, seen', revs', docs', replaced'⟩ :=
          ih _ (left ▸ closer) (run.tail (by exact trivial) stepped) rfl
        refine ⟨asks + 1, by omega, rested, ?_, rest, seen'.trans seen, revs'.trans revs,
          docs'.trans docs, replaced'.trans replaced⟩
        simpa [List.replicate_succ] using later

/-- **One poll after the last change, and at most six reads, and every document is shown as it
is.** -/
theorem a_poll_shows_every_document {capacity : Nat} (positive : 0 < capacity)
    (small : capacity ≤ 2 ^ 31) {exchanges : List Exchange} {shell : Shell Value}
    (run : Trace (step parser) Countable (start parser capacity) exchanges shell)
    (rests : shell.session.reading = .resting) (quiet : shell.replaced = none)
    (few : ∀ which, announcements which exchanges < 2 ^ 64) :
    ∃ asks ≤ 6, ∃ rested,
      Trace (step parser) Countable (start parser capacity)
        (exchanges ++ .poll :: List.replicate asks .ask) rested ∧
      rested.session.reading = .resting ∧ rested.docs = shell.docs ∧
      ∀ which, rested.session.shown which = parser.view (shell.docs.get which) := by
  have polled : shell.step parser .poll =
      some { shell with session := shell.session.poll shell.revs } := by
    simp [step, rests]
  obtain ⟨asks, bound, rested, later, rest, seen, revs, docs, replaced⟩ :=
    comes_to_rest positive small (run.tail (by exact trivial) polled)
  have changed := List.length_filter_le (fun which => shell.revs which ≠ shell.session.revs which)
    [.library, .track, .queue]
  refine ⟨asks, ?_, rested, by simpa using later, rest, docs, ?_⟩
  · simp only [Session.poll, remaining_begin, List.length_cons, List.length_nil] at bound changed
    omega
  · intro which
    have count : announcements which (exchanges ++ [.poll] ++ List.replicate asks .ask) =
        announcements which exchanges := by
      simp [announcements, List.countP_replicate, Exchange.announces]
    rw [← docs]
    refine documents_settle positive small later rest (by rw [count]; exact few which) ?_ ?_
    · rw [replaced]
      simp [quiet]
    · rw [seen, revs]
      rfl

/-- A shell that shows texts as they are read. -/
def verbatim : Parser Bytes := ⟨[], id⟩

/-- The queue is replaced by a longer text between the two reads of it. The buffer takes two
bytes at first, then as many as the first text needs. -/
def tornExchanges : List Exchange :=
  [.replace .queue [1, 2, 3], .announce .queue, .poll, .ask, .replace .queue [4, 5, 6, 7, 8],
    .ask, .announce .queue]

/-- What is shown then is a part of the newer text, until the next poll. -/
example : (script (step verbatim) Countable (start verbatim 2) tornExchanges).map
    (·.session.shown .queue) = some [4, 5, 6] := by decide

/-- The session rests, the worker is quiet, and the revision of the queue is the newest. -/
def settled (shell : Shell Bytes) : Bool :=
  shell.session.reading = .resting ∧ shell.replaced = none ∧
    shell.session.revs .queue = shell.revs .queue

theorem documents_settle_grown :
    ∃ shell, Trace (step verbatim) Countable (start verbatim 2)
        (tornExchanges ++ [.poll, .ask, .ask]) shell ∧
      shell.session.shown .queue = verbatim.view (shell.docs.get .queue) := by
  obtain ⟨shell, run, checked⟩ := Trace.of_check (step verbatim) Countable (start verbatim 2)
    (tornExchanges ++ [.poll, .ask, .ask]) settled (by decide)
  simp only [settled, decide_eq_true_eq] at checked
  obtain ⟨rests, quiet, newest⟩ := checked
  exact ⟨shell, run, documents_settle (by decide) (by decide) run rests (by decide)
    (by rw [quiet]; decide) newest⟩

theorem a_poll_shows_a_torn_queue :
    ∃ shell, Trace (step verbatim) Countable (start verbatim 2) tornExchanges shell ∧
      ∃ asks ≤ 6, ∃ rested,
        Trace (step verbatim) Countable (start verbatim 2)
          (tornExchanges ++ .poll :: List.replicate asks .ask) rested ∧
        rested.session.reading = .resting ∧ rested.docs = shell.docs ∧
        ∀ which, rested.session.shown which = verbatim.view (shell.docs.get which) := by
  obtain ⟨shell, run, checked⟩ := Trace.of_check (step verbatim) Countable (start verbatim 2)
    tornExchanges (fun shell => shell.session.reading = .resting ∧ shell.replaced = none)
    (by decide)
  simp only [decide_eq_true_eq] at checked
  exact ⟨shell, run, a_poll_shows_every_document (by decide) (by decide) run checked.1 checked.2
    (fun which => by cases which <;> decide)⟩

end Shell

end Retrovert.Bridge
