import VideoCore.Firmware.Tag

/-!
# Property messages

A property message is a row of words that the firmware overwrites in place:

    word 0     length of the message in bytes
    word 1     0 in a request, the response code in a reply
    word 2     the tag
    word 3     length of the content in bytes, the larger of request and response
    word 4     length of the request in bytes; in a reply bit 31 is set and the rest is the
               length of the response
    word 5 on  the content, filled up with zeros
    last       0, the end tag

The number of words never changes between request and reply, so it is part of the type: a reply
is a vector of exactly as many words as the message has.
-/

namespace VideoCore.Firmware

/-- How the firmware answered a message as a whole. -/
inductive Status where
  | success
  /-- The firmware answered, and reports an error. -/
  | failure (code : UInt32)
  /-- The firmware never worked on the message. -/
  | malformed (code : UInt32)
  deriving DecidableEq, Repr

/-- The response code of a message that the firmware processed. -/
def responseSuccess : UInt32 := 0x80000000

/-- The bit that marks a response code, and a tag that was answered. -/
def responseBit : UInt32 := 0x80000000

namespace Status

/-- The status that a response code stands for. -/
def ofCode (code : UInt32) : Status :=
  if code = responseSuccess then success
  else if code &&& responseBit ≠ 0 then failure code
  else malformed code

def isSuccess : Status → Bool
  | success => true
  | _ => false

end Status

/-- Words before the content. -/
def headerWords : Nat := 5

/-- A message with room for `contentWords` words of content. -/
structure Message where
  contentWords : Nat
  words : Vector UInt32 (contentWords + 6)

namespace Message

/-- A request for a tag, with room for a response of `responseWords` words. -/
def ofRequest (tag : Tag) (request : List UInt32) (responseWords : Nat) : Message :=
  let content := max request.length responseWords
  { contentWords := content
    words := ⟨(UInt32.ofNat ((content + 6) * 4) :: 0 :: tag.id :: UInt32.ofNat (content * 4)
        :: UInt32.ofNat (request.length * 4)
        :: (request ++ List.replicate (content - request.length) 0 ++ [0])).toArray, by
      simp only [List.size_toArray, List.length_cons, List.length_append, List.length_replicate,
        List.length_nil, content]
      omega⟩ }

def totalBytes (m : Message) : UInt32 := m.words[0]

def status (m : Message) : Status := Status.ofCode m.words[1]

def tagId (m : Message) : UInt32 := m.words[2]

/-- Whether the firmware marked the tag itself as answered. -/
def tagAnswered (m : Message) : Bool := m.words[4] &&& responseBit != 0

/-- The length of the response in bytes, as the firmware reports it. -/
def responseBytes (m : Message) : UInt32 := m.words[4] &&& ~~~responseBit

/-- Word `index` of the content, and 0 past its end. -/
def content (m : Message) (index : Nat) : UInt32 :=
  if h : index < m.contentWords then m.words.get ⟨headerWords + index, by simp only [headerWords]; omega⟩
  else 0

def endTag (m : Message) : UInt32 := m.words[m.contentWords + 5]

def toList (m : Message) : List UInt32 := m.words.toList

/-- The message with its words replaced by those of a reply. -/
def withReply (m : Message) (reply : Vector UInt32 (m.contentWords + 6)) : Message :=
  { m with words := reply }

@[simp] theorem length_toList (m : Message) : m.toList.length = m.contentWords + 6 := by
  simp [toList]

@[simp] theorem contentWords_withReply (m : Message) (reply : Vector UInt32 (m.contentWords + 6)) :
    (m.withReply reply).contentWords = m.contentWords := rfl

theorem content_of_le {m : Message} {index : Nat} (h : m.contentWords ≤ index) :
    m.content index = 0 := by
  simp [content, Nat.not_lt.mpr h]

/-- The content of a request is what was put into it, filled up with zeros. -/
theorem content_ofRequest (tag : Tag) (request : List UInt32) (room index : Nat) :
    (ofRequest tag request room).content index = request.getD index 0 := by
  have hwords : (ofRequest tag request room).contentWords = max request.length room := rfl
  by_cases h : index < (ofRequest tag request room).contentWords
  · have hlast : index < (request ++ List.replicate (max request.length room - request.length) 0
        ++ [0]).length := by
      simp only [List.length_append, List.length_replicate, List.length_singleton]
      omega
    have hget : (ofRequest tag request room).content index = (request ++
        List.replicate (max request.length room - request.length) 0 ++ [0])[index] := by
      rw [content, dif_pos h]
      simp only [headerWords, Nat.add_comm 5 index]
      rfl
    rw [hget, List.getD_eq_getElem?_getD]
    by_cases hinside : index < request.length
    · simp [hinside]
    · simp [hinside, List.getElem_append]
  · have hlong : request.length ≤ index := by omega
    rw [content_of_le (by omega), List.getD_eq_getElem?_getD, List.getElem?_eq_none hlong]
    rfl

end Message

end VideoCore.Firmware
