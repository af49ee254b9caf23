import Mathlib.Data.List.TakeWhile
import GalvoWeld.Link.Stream

/-!
# Replies and the calls that await them

A controller sends replies, each ended by a prompt. However the calls on a stream follow each other
and whatever comes of them, every call takes whole replies from where the call before it left off,
so that a reply is never read as the answer to another call. Once the stream has ended in the middle
of what a call awaits, this call and every later one fail.
-/

namespace GalvoWeld.Link

open GalvoWeld.Link.Stream (bytesOf replyText announcement transferName)

inductive Call where
  | request (line : String)
  | sendFile (name : String) (data : List UInt8)

inductive Outcome where
  | reply (result : Except Fault String)
  | transfer (result : Except Fault Unit)
deriving DecidableEq

namespace Stream

def perform (s : Stream) : Call → Outcome × Stream
  | .request line => (.reply (s.request line).1, (s.request line).2)
  | .sendFile name data => (.transfer (s.sendFile name data).1, (s.sendFile name data).2)

/-- Calls one after the other, also behind a call that failed. -/
def performAll (s : Stream) : List Call → List Outcome × Stream
  | [] => ([], s)
  | call :: rest =>
    let (outcome, s) := s.perform call
    let (outcomes, s) := s.performAll rest
    (outcome :: outcomes, s)

end Stream

/-- The bytes still to come in are these replies, each ended by a prompt, and a tail without one. -/
structure Scripted (incoming : List UInt8) (replies : List (List UInt8)) (tail : List UInt8) :
    Prop where
  bytes : incoming = replies.flatMap (· ++ [prompt]) ++ tail
  whole : ∀ reply ∈ replies, prompt ∉ reply
  last : prompt ∉ tail

def lineBytes (line : String) : List UInt8 := bytesOf line ++ [0x0d, 0x0a]

/-- The line that announces a file, and its frame behind it. -/
def transferBytes (name : String) (data : List UInt8) : List UInt8 :=
  lineBytes (announcement name) ++ (frameHeader data ++ data)

/-- A reply repeats the line that announced a file, blanks at the end aside. -/
def Repeats (reply : List UInt8) (name : String) : Prop :=
  Text.trimEnd (replyText reply).toList = (announcement name).toList

def Refuses (reply : List UInt8) : Prop := ['E', 'R', 'R'] <+: (replyText reply).toList

def connectionClosed : Fault := .transport "connection closed before prompt"

/-- A call with the replies that it takes, the bytes that it writes and what comes of it. -/
inductive Answered : Call → List (List UInt8) → List UInt8 → Outcome → Prop
  | request (line : String) (reply : List UInt8) :
    Answered (.request line) [reply] (lineBytes line) (.reply (.ok (replyText reply)))
  | unannounced {name : String} {echo : List UInt8} (data : List UInt8) : ¬ Repeats echo name →
    Answered (.sendFile name data) [echo] (lineBytes (announcement name))
      (.transfer (.error (.unexpectedReply (announcement name) (replyText echo))))
  | refused {name : String} {echo verdict : List UInt8} (data : List UInt8) :
    Repeats echo name → Refuses verdict →
    Answered (.sendFile name data) [echo, verdict] (transferBytes name data)
      (.transfer (.error (.unexpectedReply (transferName name data.length) (replyText verdict))))
  | accepted {name : String} {echo verdict : List UInt8} (data : List UInt8) :
    Repeats echo name → ¬ Refuses verdict →
    Answered (.sendFile name data) [echo, verdict] (transferBytes name data) (.transfer (.ok ()))

/-- A call that awaits more replies than there are. -/
inductive CutOff : Call → List (List UInt8) → List UInt8 → Outcome → Prop
  | request (line : String) :
    CutOff (.request line) [] (lineBytes line) (.reply (.error connectionClosed))
  | announcement (name : String) (data : List UInt8) :
    CutOff (.sendFile name data) [] (lineBytes (announcement name))
      (.transfer (.error connectionClosed))
  | frame {name : String} {echo : List UInt8} (data : List UInt8) : Repeats echo name →
    CutOff (.sendFile name data) [echo] (transferBytes name data)
      (.transfer (.error connectionClosed))

/-- Calls that take these replies in turn: what comes of each, the bytes that go out, and the
replies that are left. -/
inductive Dialogue :
    List (List UInt8) → List Call → List Outcome → List UInt8 → List (List UInt8) → Prop
  | done (replies : List (List UInt8)) : Dialogue replies [] [] [] replies
  | answered {call calls outcome outcomes taken replies written more left} :
    Answered call taken written outcome → Dialogue replies calls outcomes more left →
    Dialogue (taken ++ replies) (call :: calls) (outcome :: outcomes) (written ++ more) left
  | cutOff {call calls outcome outcomes replies written more left} :
    CutOff call replies written outcome → Dialogue [] calls outcomes more left →
    Dialogue replies (call :: calls) (outcome :: outcomes) (written ++ more) left

/-! ### One reply -/

section
variable {s : Stream} {reply : List UInt8} {replies : List (List UInt8)} {tail : List UInt8}

theorem Scripted.rest {incoming : List UInt8} (h : Scripted incoming (reply :: replies) tail) :
    Scripted (replies.flatMap (· ++ [prompt]) ++ tail) replies tail :=
  ⟨rfl, fun r hr => h.whole r (List.mem_cons_of_mem _ hr), h.last⟩

theorem readReply_of_scripted (h : Scripted s.incoming (reply :: replies) tail) :
    s.readReply = (.ok (replyText reply),
      { s with incoming := replies.flatMap (· ++ [prompt]) ++ tail }) := by
  have hbytes : s.incoming = reply ++ prompt :: (replies.flatMap (· ++ [prompt]) ++ tail) := by
    rw [h.bytes, List.flatMap_cons, List.append_assoc, List.append_assoc]
    rfl
  have hinside : ∀ b ∈ reply, decide (b ≠ prompt) = true := by
    intro b hb
    refine decide_eq_true fun hprompt => h.whole reply (List.mem_cons_self ..) ?_
    rwa [← hprompt]
  have htake : s.incoming.takeWhile (· ≠ prompt) = reply := by
    rw [hbytes, List.takeWhile_append_of_pos hinside]
    simp
  have hdrop : s.incoming.dropWhile (· ≠ prompt) =
      prompt :: (replies.flatMap (· ++ [prompt]) ++ tail) := by
    rw [hbytes, List.dropWhile_append_of_pos hinside]
    simp
  simp only [Stream.readReply, htake, hdrop]

theorem readReply_of_ended (h : Scripted s.incoming [] tail) :
    s.readReply = (.error connectionClosed, { s with incoming := [] }) := by
  have hdrop : s.incoming.dropWhile (· ≠ prompt) = [] := by
    refine List.dropWhile_eq_nil_iff.2 fun b hb => ?_
    rw [h.bytes] at hb
    refine decide_eq_true fun hprompt => h.last ?_
    rwa [← hprompt]
  simp only [Stream.readReply, hdrop]
  rfl

theorem request_of_scripted (h : Scripted s.incoming (reply :: replies) tail) (line : String) :
    s.request line = (.ok (replyText reply),
      ⟨replies.flatMap (· ++ [prompt]) ++ tail, s.sent ++ lineBytes line⟩) :=
  readReply_of_scripted (s := s.write (lineBytes line)) h

theorem request_of_ended (h : Scripted s.incoming [] tail) (line : String) :
    s.request line = (.error connectionClosed, ⟨[], s.sent ++ lineBytes line⟩) :=
  readReply_of_ended (s := s.write (lineBytes line)) h

end

/-! ### One call -/

/-- What a call does to a stream with these replies: it takes all that it awaits, or there are too
few of them and the stream has ended. -/
inductive Served (s : Stream) (replies : List (List UInt8)) (tail : List UInt8) (call : Call) :
    Outcome × Stream → Prop
  | answered {taken rest written outcome} {t : Stream} : replies = taken ++ rest →
    Answered call taken written outcome → t.sent = s.sent ++ written →
    Scripted t.incoming rest tail → Served s replies tail call (outcome, t)
  | cutOff {written outcome} {t : Stream} :
    CutOff call replies written outcome → t.sent = s.sent ++ written → t.incoming = [] →
    Served s replies tail call (outcome, t)

theorem served_request {s : Stream} {replies : List (List UInt8)} {tail : List UInt8}
    (h : Scripted s.incoming replies tail) (line : String) :
    Served s replies tail (.request line) (s.perform (.request line)) := by
  cases replies with
  | nil =>
    rw [Stream.perform, request_of_ended h]
    exact .cutOff (.request line) rfl rfl
  | cons reply rest =>
    rw [Stream.perform, request_of_scripted h]
    exact .answered rfl (.request line reply) rfl h.rest

theorem served_sendFile {s : Stream} {replies : List (List UInt8)} {tail : List UInt8}
    (h : Scripted s.incoming replies tail) (name : String) (data : List UInt8) :
    Served s replies tail (.sendFile name data) (s.perform (.sendFile name data)) := by
  rw [Stream.perform, Stream.sendFile]
  cases replies with
  | nil =>
    rw [request_of_ended h]
    exact .cutOff (.announcement name data) rfl rfl
  | cons echo rest =>
    rw [request_of_scripted h]
    by_cases hrepeats : Repeats echo name
    · have hkept : ¬ Text.trimEnd (replyText echo).toList ≠ (announcement name).toList :=
        not_not.2 hrepeats
      simp only [if_neg hkept]
      generalize hs : Stream.write _ (frameHeader data ++ data) = sending
      have hsent : sending.sent = s.sent ++ transferBytes name data := by
        rw [← hs]
        exact List.append_assoc ..
      have hincoming : Scripted sending.incoming rest tail := by
        rw [← hs]
        exact h.rest
      cases rest with
      | nil =>
        rw [readReply_of_ended hincoming]
        exact .cutOff (.frame data hrepeats) hsent rfl
      | cons verdict rest =>
        rw [readReply_of_scripted hincoming]
        by_cases hrefuses : Refuses verdict
        · simp only [if_pos (List.isPrefixOf_iff_prefix.2 hrefuses)]
          exact .answered rfl (.refused data hrepeats hrefuses) hsent hincoming.rest
        · have hpasses : ¬ ['E', 'R', 'R'].isPrefixOf (replyText verdict).toList = true :=
            mt List.isPrefixOf_iff_prefix.1 hrefuses
          simp only [if_neg hpasses]
          exact .answered rfl (.accepted data hrepeats hrefuses) hsent hincoming.rest
    · have hother : Text.trimEnd (replyText echo).toList ≠ (announcement name).toList := hrepeats
      simp only [if_pos hother]
      exact .answered rfl (.unannounced data hrepeats) rfl h.rest

theorem served_perform {s : Stream} {replies : List (List UInt8)} {tail : List UInt8}
    (h : Scripted s.incoming replies tail) (call : Call) :
    Served s replies tail call (s.perform call) := by
  cases call with
  | request line => exact served_request h line
  | sendFile name data => exact served_sendFile h name data

/-! ### Calls in turn -/

theorem scripted_nil : Scripted [] [] [] := ⟨rfl, nofun, nofun⟩

/-- Every call finds the stream right behind a prompt, or at its end. -/
theorem dialogue_of_scripted (calls : List Call) {s : Stream} {replies : List (List UInt8)}
    {tail : List UInt8} (h : Scripted s.incoming replies tail) :
    ∃ written left rest, Dialogue replies calls (s.performAll calls).1 written left ∧
      (s.performAll calls).2.sent = s.sent ++ written ∧
      Scripted (s.performAll calls).2.incoming left rest := by
  induction calls generalizing s replies tail with
  | nil => exact ⟨[], replies, tail, .done replies, (List.append_nil _).symm, h⟩
  | cons call calls ih =>
    have hserved := served_perform h call
    generalize hcall : s.perform call = served at hserved
    cases hserved with
    | @answered taken behind written outcome t hreplies hanswered hsent hnext =>
      obtain ⟨more, left, rest, hdialogue, hmore, hleft⟩ := ih hnext
      simp only [Stream.performAll, hcall]
      refine ⟨written ++ more, left, rest, ?_, ?_, hleft⟩
      · rw [hreplies]
        exact .answered hanswered hdialogue
      · rw [hmore, hsent, List.append_assoc]
    | @cutOff written outcome t hcut hsent hended =>
      have hnext : Scripted t.incoming [] [] := hended ▸ scripted_nil
      obtain ⟨more, left, rest, hdialogue, hmore, hleft⟩ := ih hnext
      simp only [Stream.performAll, hcall]
      refine ⟨written ++ more, left, rest, .cutOff hcut hdialogue, ?_, hleft⟩
      rw [hmore, hsent, List.append_assoc]

/-- A stream without a prompt has no greeting. Behind the greeting, the calls on a stream and the
replies that come in form a dialogue: every reply goes to the call that awaits it, and the replies
that no call awaited are still to come in. -/
theorem replies_reach_their_calls {incoming : List UInt8} {script : List (List UInt8)}
    {tail : List UInt8} (h : Scripted incoming script tail) :
    (script = [] → (Stream.connect incoming).1 = .error connectionClosed) ∧
    ∀ greeting replies, script = greeting :: replies →
      ∃ s, Stream.connect incoming = (.ok (), s) ∧
        ∀ calls, ∃ left rest,
          Dialogue replies calls (s.performAll calls).1 (s.performAll calls).2.sent left ∧
          Scripted (s.performAll calls).2.incoming left rest := by
  constructor
  · rintro rfl
    rw [Stream.connect, readReply_of_ended (s := ⟨incoming, []⟩) h]
  · rintro greeting replies rfl
    have hgreeting := readReply_of_scripted (s := ⟨incoming, []⟩) h
    refine ⟨_, by rw [Stream.connect, hgreeting], fun calls => ?_⟩
    obtain ⟨written, left, rest, hdialogue, hwritten, hleft⟩ := dialogue_of_scripted calls
      (s := ⟨replies.flatMap (· ++ [prompt]) ++ tail, []⟩) h.rest
    refine ⟨left, rest, ?_, hleft⟩
    rw [hwritten]
    exact hdialogue

/-- A read, a file that is refused, and a stream that ends in the reply to the next announcement. -/
def benchScript : List (List UInt8) :=
  [bytesOf "ready\r\n", bytesOf "G JOB_SEL 3\r\n", bytesOf "S FILE_NAME a \r\n", bytesOf "ERR 7"]

def benchCalls : List Call :=
  [.request "G JOB_SEL ", .sendFile "a" [0x49, 0x4e], .sendFile "b" [], .request "G JOB_SEL "]

def benchIncoming : List UInt8 :=
  benchScript.flatMap (· ++ [prompt]) ++ bytesOf "S FILE"

theorem bench_replies_reach_calls :
    Scripted benchIncoming benchScript (bytesOf "S FILE") ∧
    ∃ s, Stream.connect benchIncoming = (.ok (), s) ∧
      (s.performAll benchCalls).1 = [.reply (.ok "G JOB_SEL 3"),
        .transfer (.error (.unexpectedReply "BTX a (2 bytes)" "ERR 7")),
        .transfer (.error connectionClosed), .reply (.error connectionClosed)] ∧
      ∃ left rest, Dialogue benchScript.tail benchCalls (s.performAll benchCalls).1
        (s.performAll benchCalls).2.sent left ∧
        Scripted (s.performAll benchCalls).2.incoming left rest := by
  have hscript : Scripted benchIncoming benchScript (bytesOf "S FILE") :=
    ⟨rfl, by decide +kernel, by decide +kernel⟩
  obtain ⟨-, hcalls⟩ := replies_reach_their_calls hscript
  obtain ⟨s, hconnect, hdialogue⟩ := hcalls _ _ rfl
  have hstream : s = (Stream.connect benchIncoming).2 := by rw [hconnect]
  refine ⟨hscript, s, hconnect, ?_, hdialogue benchCalls⟩
  rw [hstream]
  decide +kernel

end GalvoWeld.Link
