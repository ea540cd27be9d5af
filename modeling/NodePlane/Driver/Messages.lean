import NodePlane.Driver.Operations
import NodePlane.Library.Wire

/-! The messages of an operations file in the protobuf wire format, an instance of
`Format`. -/
namespace NodePlane
namespace Driver
open Library.Wire

/-- Length-delimited messages of type `α`, from their fields and the merge of one field. -/
def messageCodec {α : Type} (fields : α → List Field) (merge : α → Field → Option α) (start : α)
    (merges : ∀ a, (fields a).foldlM merge start = some a) : Codec α where
  encode a := delimited ((fields a).flatMap Field.encode)
  decode bytes :=
    match readDelimited bytes with
    | none => .error "buffer underflow"
    | some (payload, rest) =>
      match (readFields payload).bind fun fields => fields.foldlM merge start with
      | none => .error "failed to decode Protobuf message"
      | some a => .ok (a, rest)
  shorter {bytes a rest} decoded := by
    cases read : readDelimited bytes with
    | none => simp [read] at decoded
    | some pair =>
      obtain ⟨payload, after⟩ := pair
      simp only [read] at decoded
      split at decoded
      · cases decoded
      · cases decoded
        exact readDelimited_shorter read
  decode_encode a rest := by
    simp [readDelimited_delimited, readFields_flatMap, merges]

def DriverError.fields (error : DriverError) : List Field :=
  text 1 error.code ++ (text 2 error.summary ++ (text 3 error.detail ++
    if error.retryable then [⟨4, .number 1⟩] else []))

def DriverError.empty : DriverError := ⟨"", "", "", false⟩

def DriverError.merge (error : DriverError) : Field → Option DriverError
  | ⟨1, .bytes payload⟩ => (utf8 payload).map fun code => { error with code }
  | ⟨2, .bytes payload⟩ => (utf8 payload).map fun summary => { error with summary }
  | ⟨3, .bytes payload⟩ => (utf8 payload).map fun detail => { error with detail }
  | ⟨4, .number n⟩ => some { error with retryable := n ≠ 0 }
  | ⟨tag, _⟩ => if tag ∈ [1, 2, 3, 4] then none else some error

theorem DriverError.merges (error : DriverError) :
    error.fields.foldlM DriverError.merge DriverError.empty = some error := by
  obtain ⟨code, summary, detail, retryable⟩ := error
  unfold fields empty
  refine foldlM_text (fun s => ⟨s, "", "", false⟩) rfl (fun _ => rfl) ?_
  refine foldlM_text (fun s => ⟨code, s, "", false⟩) rfl (fun _ => rfl) ?_
  refine foldlM_text (fun s => ⟨code, summary, s, false⟩) rfl (fun _ => rfl) ?_
  cases retryable <;> rfl

/-- A message that is a field of another one. -/
def nested {α : Type} (merge : α → Field → Option α) (start : α) (payload : Bytes) : Option α :=
  (readFields payload).bind fun fields => fields.foldlM merge start

theorem nested_flatMap {α : Type} {merge : α → Field → Option α} {start : α} (fields : List Field) :
    nested merge start (fields.flatMap Field.encode) = fields.foldlM merge start := by
  simp [nested, readFields_flatMap]

def Operation.fields (operation : Operation) : List Field :=
  text 1 operation.operationId ++ (text 2 operation.kind ++ (text 3 operation.status ++
    (text 4 operation.nodeKey ++ (text 5 operation.profileName ++ (text 6 operation.startedAt ++
      (text 7 operation.updatedAt ++ (text 8 operation.finishedAt ++
        (text 9 operation.progressMessage ++
          ((operation.error.map fun error =>
              (⟨10, .bytes (error.fields.flatMap Field.encode)⟩ : Field)).toList ++
            text 11 operation.resultJson)))))))))

def Operation.merge (operation : Operation) : Field → Option Operation
  | ⟨1, .bytes payload⟩ => (utf8 payload).map fun operationId => { operation with operationId }
  | ⟨2, .bytes payload⟩ => (utf8 payload).map fun kind => { operation with kind }
  | ⟨3, .bytes payload⟩ => (utf8 payload).map fun status => { operation with status }
  | ⟨4, .bytes payload⟩ => (utf8 payload).map fun nodeKey => { operation with nodeKey }
  | ⟨5, .bytes payload⟩ => (utf8 payload).map fun profileName => { operation with profileName }
  | ⟨6, .bytes payload⟩ => (utf8 payload).map fun startedAt => { operation with startedAt }
  | ⟨7, .bytes payload⟩ => (utf8 payload).map fun updatedAt => { operation with updatedAt }
  | ⟨8, .bytes payload⟩ => (utf8 payload).map fun finishedAt => { operation with finishedAt }
  | ⟨9, .bytes payload⟩ =>
    (utf8 payload).map fun progressMessage => { operation with progressMessage }
  | ⟨10, .bytes payload⟩ =>
    (nested DriverError.merge (operation.error.getD DriverError.empty) payload).map
      fun error => { operation with error := some error }
  | ⟨11, .bytes payload⟩ => (utf8 payload).map fun resultJson => { operation with resultJson }
  | ⟨tag, _⟩ => if tag ∈ List.range' 1 11 then none else some operation

theorem Operation.merges (operation : Operation) :
    operation.fields.foldlM Operation.merge {} = some operation := by
  obtain ⟨a, b, c, d, e, f, g, h, i, error, k⟩ := operation
  unfold fields
  refine foldlM_text (fun s => { operationId := s }) rfl (fun _ => rfl) ?_
  refine foldlM_text (fun s => ⟨a, s, "", "", "", "", "", "", "", none, ""⟩) rfl (fun _ => rfl) ?_
  refine foldlM_text (fun s => ⟨a, b, s, "", "", "", "", "", "", none, ""⟩) rfl (fun _ => rfl) ?_
  refine foldlM_text (fun s => ⟨a, b, c, s, "", "", "", "", "", none, ""⟩) rfl (fun _ => rfl) ?_
  refine foldlM_text (fun s => ⟨a, b, c, d, s, "", "", "", "", none, ""⟩) rfl (fun _ => rfl) ?_
  refine foldlM_text (fun s => ⟨a, b, c, d, e, s, "", "", "", none, ""⟩) rfl (fun _ => rfl) ?_
  refine foldlM_text (fun s => ⟨a, b, c, d, e, f, s, "", "", none, ""⟩) rfl (fun _ => rfl) ?_
  refine foldlM_text (fun s => ⟨a, b, c, d, e, f, g, s, "", none, ""⟩) rfl (fun _ => rfl) ?_
  refine foldlM_text (fun s => ⟨a, b, c, d, e, f, g, h, s, none, ""⟩) rfl (fun _ => rfl) ?_
  have last : ∀ error, (text 11 k).foldlM Operation.merge ⟨a, b, c, d, e, f, g, h, i, error, ""⟩ =
      some ⟨a, b, c, d, e, f, g, h, i, error, k⟩ := by
    intro error
    rw [← List.append_nil (text 11 k)]
    exact foldlM_text (fun s => ⟨a, b, c, d, e, f, g, h, i, error, s⟩) rfl (fun _ => rfl) rfl
  cases error with
  | none => exact last none
  | some error =>
    have step : Operation.merge ⟨a, b, c, d, e, f, g, h, i, none, ""⟩
        ⟨10, .bytes (error.fields.flatMap Field.encode)⟩ =
          some ⟨a, b, c, d, e, f, g, h, i, some error, ""⟩ := by
      simp [Operation.merge, nested_flatMap, DriverError.merges]
    simp [step, last]

def StoredOperation.fields (record : StoredOperation) : List Field :=
  ⟨1, .bytes (record.operation.fields.flatMap Field.encode)⟩ :: (text 2 record.commandId ++
    if record.requestHash = [] then [] else [⟨3, .bytes record.requestHash⟩])

def StoredOperation.merge (record : StoredOperation) : Field → Option StoredOperation
  | ⟨1, .bytes payload⟩ =>
    (nested Operation.merge record.operation payload).map fun operation => { record with operation }
  | ⟨2, .bytes payload⟩ => (utf8 payload).map fun commandId => { record with commandId }
  | ⟨3, .bytes requestHash⟩ => some { record with requestHash }
  | ⟨tag, _⟩ => if tag ∈ [1, 2, 3] then none else some record

theorem StoredOperation.merges (record : StoredOperation) :
    record.fields.foldlM StoredOperation.merge {} = some record := by
  obtain ⟨operation, commandId, requestHash⟩ := record
  have first : StoredOperation.merge {} ⟨1, .bytes (operation.fields.flatMap Field.encode)⟩ =
      some ⟨operation, "", []⟩ := by
    simp [StoredOperation.merge, nested_flatMap, Operation.merges]
  unfold fields
  rw [List.foldlM_cons, first]
  show List.foldlM _ _ _ = _
  refine foldlM_text (fun s => ⟨operation, s, []⟩) rfl (fun _ => rfl) ?_
  split
  · rename_i none
    cases none
    rfl
  · rfl

/-- The two records of `operations.rs` in the wire format. -/
def protobuf : Format where
  operation := messageCodec Operation.fields Operation.merge {} Operation.merges
  stored := messageCodec StoredOperation.fields StoredOperation.merge {} StoredOperation.merges

end Driver
end NodePlane
