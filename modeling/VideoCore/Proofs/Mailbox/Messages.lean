import VideoCore.Proofs.Mailbox.Calls

/-!
# What a message says, before and after its reply

A message is written by the backend and overwritten by whoever carries it to the firmware and back, who
may leave anything in it. Two things do not depend on what he leaves. The words of a request tell which
tag was asked for, with which words and how much room (`RequestEncoded`), so that the far side needs
nothing but them. And every accessor looks at one word of the message, wherever the header says that
its parts end (`ReadsInside`), as the number of words is not taken from the header.

`RequestCarried` puts both together. It supposes that the length of the message in bytes fits the word
that it is written to; where it does not, the header says something else (`totalBytes_eq_iff`).
-/

namespace VideoCore.Firmware

open Hardware

/-! ## Reading a request back -/

/-- The tag with a number. -/
def Tag.ofId? (number : UInt32) : Option Tag :=
  Tag.all.find? fun tag => tag.id == number

theorem Tag.ofId?_id (tag : Tag) : ofId? tag.id = some tag := by
  cases tag
  all_goals rfl

namespace Message

/-- The tag and the words of a request, read from the words of its message alone. -/
def decode? : List UInt32 → Option (Tag × List UInt32)
  | _ :: _ :: number :: _ :: bytes :: content =>
    (Tag.ofId? number).map fun tag => (tag, content.take (bytes.toNat / 4))
  | _ => none

variable {tag : Tag} {request : List UInt32} {room : Nat}

/-- The words of a request, in their order. -/
theorem toList_ofRequest (tag : Tag) (request : List UInt32) (room : Nat) :
    (ofRequest tag request room).toList =
      UInt32.ofNat ((max request.length room + 6) * 4) :: 0 :: tag.id ::
        UInt32.ofNat (max request.length room * 4) :: UInt32.ofNat (request.length * 4) ::
        (request ++ List.replicate (max request.length room - request.length) 0 ++ [0]) :=
  rfl

/-- The header gives the length of a message as long as it fits a word. -/
theorem totalBytes_eq_iff (tag : Tag) (request : List UInt32) (room : Nat) :
    (ofRequest tag request room).totalBytes.toNat = 4 * (ofRequest tag request room).toList.length ↔
      (max request.length room + 6) * 4 < UInt32.size := by
  have hword : (ofRequest tag request room).totalBytes.toNat =
      (max request.length room + 6) * 4 % UInt32.size := UInt32.toNat_ofNat'
  have hlength : (ofRequest tag request room).toList.length = max request.length room + 6 :=
    length_toList _
  rw [hword, hlength, Nat.mul_comm 4]
  constructor
  · intro h
    rw [← h]
    exact Nat.mod_lt _ (by decide)
  · exact Nat.mod_eq_of_lt

/-- What the words of a message say about the request that they stand for. -/
structure RequestEncoded (tag : Tag) (request : List UInt32) (room : Nat) (words : List UInt32) :
    Prop where
  /-- There is room for the request and for the response, whichever is longer. -/
  length : words.length = max request.length room + 6
  /-- Word 0 is the length of all words in bytes. -/
  size : words[0]?.map UInt32.toNat = some (4 * words.length)
  /-- Word 1 says that nobody has answered. -/
  code : words[1]? = some 0
  /-- Word 3 is the length of the content in bytes. -/
  contentSize : words[3]?.map UInt32.toNat = some (4 * max request.length room)
  /-- Word 4 is the length of the request in bytes. -/
  requestSize : words[4]?.map UInt32.toNat = some (4 * request.length)
  /-- What is asked for can be read back. -/
  decodes : decode? words = some (tag, request)
  /-- The content is filled up with zeros. -/
  padding : ∀ index, request.length ≤ index → index < max request.length room →
    words[headerWords + index]? = some 0
  /-- So is the last word. -/
  endTag : words.getLast? = some 0

/-- A request is what its message says. -/
theorem requestEncoded (hfits : (max request.length room + 6) * 4 < UInt32.size) :
    RequestEncoded tag request room (ofRequest tag request room).toList := by
  have hnumber (n : Nat) (hn : n ≤ (max request.length room + 6) * 4) :
      (UInt32.ofNat n).toNat = n :=
    UInt32.toNat_ofNat_of_lt' (Nat.lt_of_le_of_lt hn hfits)
  refine ⟨length_toList _, ?_, rfl, ?_, ?_, ?_, ?_, ?_⟩
  · rw [length_toList, Nat.mul_comm]
    exact congrArg some (hnumber _ (Nat.le_refl _))
  · rw [Nat.mul_comm]
    exact congrArg some (hnumber (max request.length room * 4) (by omega))
  · rw [Nat.mul_comm]
    exact congrArg some (hnumber (request.length * 4) (by omega))
  · rw [toList_ofRequest, decode?, Tag.ofId?_id, hnumber _ (by omega), List.append_assoc,
      Nat.mul_div_cancel _ (by decide), List.take_left]
    rfl
  · intro index hrequest hcontent
    have hpadded : (request ++ List.replicate (max request.length room - request.length) 0 ++
        [0])[index]? = some (0 : UInt32) := by
      rw [List.append_assoc, List.getElem?_append_right hrequest, List.getElem?_append_left
        (by rw [List.length_replicate]; omega), List.getElem?_replicate, if_pos (by omega)]
    rw [toList_ofRequest, headerWords, Nat.add_comm 5]
    exact hpadded
  · rw [toList_ofRequest]
    simp [List.getLast?_cons, List.getLast?_append]

/-! ## Looking at a message -/

/-- Every accessor of a message looks at a word that the message has. -/
structure ReadsInside (m : Message) : Prop where
  /-- Header and end tag are there, and the content is what stands between them. -/
  long : m.toList.length = headerWords + m.contentWords + 1
  totalBytes : m.toList[0]? = some m.totalBytes
  status : m.toList[1]?.map Status.ofCode = some m.status
  tagId : m.toList[2]? = some m.tagId
  tagAnswered : m.toList[4]?.map (fun word => word &&& responseBit != 0) = some m.tagAnswered
  responseBytes : m.toList[4]?.map (fun word => word &&& ~~~responseBit) = some m.responseBytes
  content : ∀ index < m.contentWords, m.toList[headerWords + index]? = some (m.content index)
  /-- Past the content there is nothing to read, and the end tag is not taken for content. -/
  past : ∀ index, m.contentWords ≤ index → m.content index = 0
  endTag : m.toList.getLast? = some m.endTag

/-- A word that a message has stands at its place in the row. -/
theorem getElem?_toList (m : Message) {place : Nat} (h : place < m.contentWords + 6) :
    m.toList[place]? = some m.words[place] := by
  rw [toList, List.getElem?_eq_getElem (by rw [Vector.length_toList]; exact h),
    Vector.getElem_toList]

/-- The header is not asked how long a message is, so it may say what it likes. -/
theorem readsInside (m : Message) : ReadsInside m where
  long := by rw [length_toList, headerWords]; omega
  totalBytes := m.getElem?_toList (by omega)
  status := congrArg (Option.map Status.ofCode) (m.getElem?_toList (by omega))
  tagId := m.getElem?_toList (by omega)
  tagAnswered :=
    congrArg (Option.map fun word => word &&& responseBit != 0) (m.getElem?_toList (by omega))
  responseBytes :=
    congrArg (Option.map fun word => word &&& ~~~responseBit) (m.getElem?_toList (by omega))
  content index hindex := by
    rw [getElem?_toList m (by rw [headerWords]; omega), content, dif_pos hindex]
    rfl
  past _ := content_of_le
  endTag := by
    rw [List.getLast?_eq_getElem?, length_toList]
    exact m.getElem?_toList (by omega)

/-! ## There and back -/

/-- What becomes of a request on its way. -/
structure RequestCarried (tag : Tag) (request : List UInt32) (room : Nat) : Prop where
  /-- It is sent as its message says. -/
  encoded : RequestEncoded tag request room (ofRequest tag request room).toList
  /-- Its message counts as not answered. -/
  unanswered : (ofRequest tag request room).status = .malformed 0
  /-- Whatever its words are overwritten with, there are as many as before, and they can be read. -/
  overwritten : ∀ reply : Vector UInt32 ((ofRequest tag request room).contentWords + 6),
    ((ofRequest tag request room).withReply reply).toList = reply.toList ∧
    ((ofRequest tag request room).withReply reply).contentWords = max request.length room ∧
    ReadsInside ((ofRequest tag request room).withReply reply)
  /-- A round trip sends it once, and gives back nothing but such a message. -/
  roundTrip : ∀ events answer,
    Performs (Mailbox.call (ofRequest tag request room)) events (.ok answer) ↔
      ∃ reply, events = [⟨.property (ofRequest tag request room), .ok reply⟩] ∧
        answer = (ofRequest tag request room).withReply reply

/-- A call that does not fail has sent its message, and holds the reply. -/
theorem performs_call_ok {m answer : Message} {events : List (Exchange Hardware)} :
    Performs (Mailbox.call m) events (.ok answer) ↔
      ∃ reply, events = [⟨.property m, .ok reply⟩] ∧ answer = m.withReply reply := by
  rw [Mailbox.performs_call]
  constructor
  · rintro ⟨cause | reply, rfl, hanswer⟩
    · cases hanswer
    · cases hanswer
      exact ⟨reply, rfl, rfl⟩
  · rintro ⟨reply, rfl, rfl⟩
    exact ⟨.ok reply, rfl, rfl⟩

/-- A request whose message fits its header gets across, and what comes back can be read. -/
theorem request_carried (tag : Tag) (request : List UInt32) (room : Nat)
    (hfits : (max request.length room + 6) * 4 < UInt32.size) : RequestCarried tag request room where
  encoded := requestEncoded hfits
  unanswered := (by decide : Status.ofCode 0 = .malformed 0)
  overwritten reply := ⟨rfl, rfl, readsInside _⟩
  roundTrip _ _ := performs_call_ok

/-- A page is asked for, and all bits of the message come back set. The header then claims four
gigabytes, and no more than the three words of the content are read as such. -/
theorem request_carried_sample :
    (max 3 1 + 6) * 4 < UInt32.size ∧
    decode? [36, 0, 0x3000C, 12, 12, 4096, 4096, 12, 0] = some (.allocateMemory, [4096, 4096, 12]) ∧
    ((ofRequest .allocateMemory [4096, 4096, 12] 1).withReply
      (Vector.replicate 9 0xFFFFFFFF)).content 2 = 0xFFFFFFFF ∧
    ((ofRequest .allocateMemory [4096, 4096, 12] 1).withReply
      (Vector.replicate 9 0xFFFFFFFF)).content 3 = 0 := by
  have hfits : (max 3 1 + 6) * 4 < UInt32.size := by decide
  have hcarried := request_carried .allocateMemory [4096, 4096, 12] 1 hfits
  refine ⟨hfits, hcarried.encoded.decodes, rfl, ?_⟩
  exact (hcarried.overwritten _).2.2.past 3 (by decide)

end Message

end VideoCore.Firmware
