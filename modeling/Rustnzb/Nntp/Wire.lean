import Mathlib
import Rustnzb.Dispatch.WorkItem

/-!
# Reading and writing on an NNTP connection

The bytes a server sends are a list with what comes after its last byte. Every reader takes lines
off it, a line being the bytes up to and with the next LF, or all that is left before the server
closes the connection. The heartbeat and the reuse of buffers change nothing that is read and are
left out.
-/

namespace Rustnzb.Nntp

open Dispatch (NntpError)

def dot : UInt8 := 46
def cr : UInt8 := 13
def lf : UInt8 := 10

def crlf : List UInt8 := [cr, lf]

/-- What comes after the last byte. -/
inductive Ending where
  | closed
  | broken (message : String)
  /-- Nothing comes any more, until the read times out. -/
  | silent
  deriving DecidableEq

inductive ReadError where
  | io (message : String)
  | elapsed
  deriving DecidableEq

structure Incoming where
  bytes : List UInt8
  ending : Ending
  deriving DecidableEq

/-- The bytes up to and with the first LF, and those after it. -/
def splitLine : List UInt8 → Option (List UInt8 × List UInt8)
  | [] => none
  | byte :: rest =>
      if byte = lf then some ([lf], rest)
      else (splitLine rest).map fun (line, after) => (byte :: line, after)

theorem splitLine_append {line : List UInt8} (noLf : lf ∉ line) (rest : List UInt8) :
    splitLine (line ++ lf :: rest) = some (line ++ [lf], rest) := by
  induction line with
  | nil => simp [splitLine]
  | cons byte line ih =>
      simp only [List.mem_cons, not_or] at noLf
      simp [splitLine, Ne.symm noLf.1, ih noLf.2]

theorem eq_append_of_splitLine {bytes line rest : List UInt8}
    (split : splitLine bytes = some (line, rest)) : bytes = line ++ rest ∧ line ≠ [] := by
  induction bytes generalizing line with
  | nil => simp [splitLine] at split
  | cons byte bytes ih =>
      simp only [splitLine] at split
      split at split
      next isLf =>
        cases split
        simp [isLf]
      · rcases Option.map_eq_some_iff.mp split with ⟨⟨first, after⟩, found, same⟩
        cases same
        simp [(ih found).1]

theorem length_lt_of_splitLine {bytes line rest : List UInt8}
    (split : splitLine bytes = some (line, rest)) : rest.length < bytes.length := by
  rcases eq_append_of_splitLine split with ⟨same, notEmpty⟩
  have := List.length_pos_iff.mpr notEmpty
  simp only [same, List.length_append]
  omega

namespace Incoming

def readLineBytes (incoming : Incoming) : Except ReadError (List UInt8) × Incoming :=
  match splitLine incoming.bytes with
  | some (line, rest) => (.ok line, { incoming with bytes := rest })
  | none =>
      let drained := { incoming with bytes := [] }
      match incoming.ending with
      | .closed => (.ok incoming.bytes, drained)
      | .broken message => (.error (.io message), drained)
      | .silent => (.error .elapsed, drained)

theorem length_readLineBytes_le (incoming : Incoming) :
    incoming.readLineBytes.2.bytes.length ≤ incoming.bytes.length := by
  simp only [readLineBytes]
  split
  next line rest split =>
    simp [(eq_append_of_splitLine split).1]
  · split <;> simp

theorem length_readLineBytes_lt {incoming : Incoming} (some : incoming.bytes ≠ []) :
    incoming.readLineBytes.2.bytes.length < incoming.bytes.length := by
  have positive := List.length_pos_iff.mpr some
  simp only [readLineBytes]
  split
  next line rest split => exact length_lt_of_splitLine split
  · split <;> simpa using positive

theorem length_of_readLineBytes_ok {incoming rest : Incoming} {line : List UInt8}
    (read : incoming.readLineBytes = (.ok line, rest)) (notEmpty : line ≠ []) :
    rest.bytes.length < incoming.bytes.length := by
  have some : incoming.bytes ≠ [] := by
    intro none
    simp only [readLineBytes, none, splitLine] at read
    split at read <;> simp_all
  simpa [read] using length_readLineBytes_lt some

theorem readLineBytes_of_line {line : List UInt8} (rest : List UInt8) (ending : Ending)
    (noLf : lf ∉ line) :
    readLineBytes { bytes := line ++ lf :: rest, ending := ending } =
      (.ok (line ++ [lf]), { bytes := rest, ending := ending }) := by
  simp [readLineBytes, splitLine_append noLf]

end Incoming

structure NntpResponse where
  code : ℕ
  message : String
  data : Option (List UInt8)
  deriving DecidableEq

/-- Parse a status line into its code and message. The text that `{:?}` prints of a bad line is
written with `String.quote`. -/
def parseResponseLine (line : String) : Except NntpError NntpResponse :=
  let trimmed := line.toList.rdropWhile fun char => char = '\r' || char = '\n'
  if (String.ofList trimmed).utf8ByteSize < 3 then
    .error (.protocol ("Response line too short: " ++ (String.ofList trimmed).quote))
  else
    match trimmed with
    | first :: second :: third :: rest =>
        if first.isDigit && second.isDigit && third.isDigit then
          .ok {
            code := [first, second, third].foldl (fun acc digit => acc * 10 + (digit.toNat - 48)) 0
            message := String.ofList (rest.drop 1)
            data := none }
        else .error (.protocol ("Invalid response code in: " ++ (String.ofList trimmed).quote))
    | _ => .error (.protocol ("Invalid response code in: " ++ (String.ofList trimmed).quote))

namespace Incoming

def readResponseLine (incoming : Incoming) : Except NntpError NntpResponse × Incoming :=
  match incoming.readLineBytes with
  | (.error (.io message), rest) => (.error (.io message), rest)
  | (.error .elapsed, rest) => (.error (.io "read_response_line timed out after 60s"), rest)
  | (.ok line, rest) =>
      match String.fromUTF8? ⟨line.toArray⟩ with
      | none => (.error (.io "stream did not contain valid UTF-8"), rest)
      | some text =>
          if line = [] then (.error (.connection "Server closed connection"), rest)
          else (parseResponseLine text, rest)

end Incoming

def maxPrefixLine : ℕ := 16 * 1024

structure BodyPrefixResponse where
  data : List UInt8
  complete : Bool
  deriving DecidableEq

def isTerminator (line : List UInt8) : Bool :=
  line = dot :: crlf || line = [dot, lf]

/-- Of two dots at the start of a line, the first was stuffed in. -/
def unstuff (line : List UInt8) : List UInt8 :=
  if [dot, dot].isPrefixOf line then line.tail else line

namespace Incoming

/-- The loop of `read_multiline_body_into_bounded`, with what it has read so far. -/
def readBodyLoop (maxBytes : Option ℕ) (out : List UInt8) (incoming : Incoming) :
    Except NntpError (List UInt8) × Incoming :=
  match read : incoming.readLineBytes with
  | (.error (.io message), rest) => (.error (.io message), rest)
  | (.error .elapsed, rest) =>
      (.error (.io ("read_multiline_body timed out after 20s (received " ++
        toString out.length ++ " bytes so far)")), rest)
  | (.ok line, rest) =>
      if empty : line = [] then
        (.error (.connection "Server closed connection during multi-line read"), rest)
      else if isTerminator line then (.ok out, rest)
      else if maxBytes.any fun maximum => maximum < out.length + (unstuff line).length then
        (.error (.responseTooLarge "multi-line response exceeds its byte bound"), rest)
      else
        have := length_of_readLineBytes_ok read empty
        readBodyLoop maxBytes (out ++ unstuff line) rest
termination_by incoming.bytes.length

/-- Read a multi-line body up to its terminator, undoing the dot-stuffing. -/
def readMultilineBody (incoming : Incoming) : Except NntpError (List UInt8) × Incoming :=
  incoming.readBodyLoop none []

def readMultilineBodyBounded (incoming : Incoming) (maxBytes : ℕ) :
    Except NntpError (List UInt8) × Incoming :=
  incoming.readBodyLoop (some maxBytes) []

def readPrefixLoop (maxBytes : ℕ) (data : List UInt8) (incoming : Incoming) :
    Except NntpError BodyPrefixResponse × Incoming :=
  match read : incoming.readLineBytes with
  | (.error (.io message), rest) => (.error (.io message), rest)
  | (.error .elapsed, rest) => (.error (.timeout "BODY prefix line timed out"), rest)
  | (.ok line, rest) =>
      if empty : line = [] then
        (.error (.connection "Server closed connection during BODY prefix"), rest)
      else if isTerminator line then (.ok { data := data, complete := true }, rest)
      else if maxPrefixLine < line.length then
        (.error (.responseTooLarge "BODY prefix line exceeds its byte bound"), rest)
      else
        let remaining := maxBytes - data.length
        let more := data ++ (unstuff line).take (min (unstuff line).length remaining)
        if remaining < (unstuff line).length || more.length = maxBytes then
          (.ok { data := more, complete := false }, rest)
        else
          have := length_of_readLineBytes_ok read empty
          readPrefixLoop maxBytes more rest
termination_by incoming.bytes.length

def readMultilineBodyPrefix (incoming : Incoming) (maxBytes : ℕ) :
    Except NntpError BodyPrefixResponse × Incoming :=
  incoming.readPrefixLoop maxBytes []

end Incoming

/-- A line as it is posted: without its line ending, with a dot before a leading dot. -/
def stuff (line : List UInt8) : List UInt8 :=
  (if [dot].isPrefixOf line then [dot] else []) ++ line ++ crlf

def stripCr (line : List UInt8) : List UInt8 :=
  if line.getLast? = some cr then line.dropLast else line

def postLines (article : List UInt8) : List UInt8 :=
  match found : splitLine article with
  | some (line, rest) =>
      have : rest.length < article.length := length_lt_of_splitLine found
      stuff (stripCr line.dropLast) ++ postLines rest
  | none => if article = [] then [] else stuff (stripCr article)
termination_by article.length

/-- What `post_article_bytes` writes after a 340. -/
def postBody (article : List UInt8) : List UInt8 :=
  postLines article ++ dot :: crlf

end Rustnzb.Nntp
