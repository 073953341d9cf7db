/-
  LayeredConfig.Layer.Merge

  Laying one document over another.

  Where both have a table the two are merged key by key; everywhere else the
  value that lies on top replaces the one below.  A key that is replaced leaves
  its place to the last key of the lower document and comes last itself, as a
  new key does.
-/
import LayeredConfig.Value

namespace LayeredConfig

mutual

/-- What a key is bound to when `v` is laid over what the lower document binds
    it to. -/
def Value.overlay (below : Option Value) : Value → Value
  | .table upper =>
    match below with
    | some (.table lower) => .table (Document.overlay lower upper)
    | _ => .table upper
  | v => v

/-- The lower document with the upper one laid over it. -/
def Document.overlay (lower : Document) : (upper : Document) → Document
  | [] => lower
  | (key, v) :: upper =>
    -- the lower value is looked up before its key gives up its place
    let merged := Value.overlay (Document.find? key lower) v
    Document.overlay (Document.insert key merged (Document.swapErase key lower)) upper

end

end LayeredConfig
