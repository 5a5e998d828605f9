/-
  ShowRelay.Store

  The state of the show: the last value given to each control parameter. A
  store changes only by merging deltas, in which a later setting of a key
  overrides an earlier one, and keys are never removed. Keys ascend by code
  point, which is also the order of their UTF-8 bytes, so equal stores have the
  same text.
-/

import ShowRelay.Delta
import ShowRelay.Table

namespace ShowRelay

/-- The values of the control parameters by key. -/
abbrev Store := Table String String

namespace Store

/-- The store of a show in which nothing has been set. -/
def blank : Store := Table.empty

/-- The store after the settings of a delta, applied from left to right. -/
def merge (store : Store) (delta : Delta) : Store := store.insertAll delta

/-- The settings of the store, smallest key first. -/
def dump (store : Store) : Delta := store.entries

/-- The whole store in the form of a message. -/
def text (store : Store) : String := Delta.encode store.dump

/-- The store that a message written into a blank one leaves. -/
def ofMessage (message : String) : Store := blank.merge (Delta.decode message)

/-- A key has the last value that the delta gives to it, or else the one it had. -/
theorem get?_merge (store : Store) (delta : Delta) (key : String) :
    (store.merge delta).get? key = (Entries.last? key delta).or (store.get? key) :=
  Table.get?_insertAll store delta key

theorem merge_append (store : Store) (d e : Delta) :
    store.merge (d ++ e) = (store.merge d).merge e :=
  Table.insertAll_append store d e

end Store

end ShowRelay
