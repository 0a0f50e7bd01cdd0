import LogQuery.Session.Search

/-!
Going through all hits of a request, page after page. However it ends, the scroll is let go of.
-/

namespace LogQuery.Session

/-- Why no more hits of a page are taken. -/
inductive Pause where
  | more
  | enough
  /-- The limit cannot be compared with the number of hits. -/
  | failed (failure : Failure)

/-- As many hits as the limit were taken. -/
def isReached (limit : Json) (taken : Nat) : Except Failure Bool :=
  match limit with
  | .null => .ok false
  | _ => do
    let limit ← limit.asNumeral
    let taken := Numeral.int taken
    return limit.lt taken || limit.same taken

/-- Take the hits of a page one by one after `taken` earlier ones, and stop when the limit is
reached or when the caller has as many as it wants. The limit is looked at after each hit. -/
def takeHits (limit : Json) (wanted : Option Nat) (taken : Nat) : List Json → List Json × Pause
  | [] => ([], .more)
  | hit :: hits =>
    if wanted == some (taken + 1) then ([hit], .enough)
    else
      match isReached limit (taken + 1) with
      | .error failure => ([hit], .failed failure)
      | .ok true => ([hit], .enough)
      | .ok false =>
        let (more, pause) := takeHits limit wanted (taken + 1) hits
        (hit :: more, pause)

/-- Hits, and the failure that ended them, if one did. -/
structure Harvest where
  hits : List Json
  failure : Option Failure

/-- The hits from a page on. The fuel bounds the pages after it. -/
def harvestFrom (config : Config) (limit : Json) (wanted : Option Nat) :
    Nat → Nat → Cluster.Page → Session → Harvest × Session
  | fuel, taken, page, s =>
    if page.hits.truthy then
      match page.hits.parts with
      | .error failure => (⟨[], some failure⟩, s)
      | .ok hits =>
        match takeHits limit wanted taken hits with
        | (hits, .enough) => (⟨hits, none⟩, s)
        | (hits, .failed failure) => (⟨hits, some failure⟩, s)
        | (hits, .more) =>
          match fuel with
          | 0 => (⟨hits, none⟩, s)
          | fuel + 1 =>
            match (scroll config).run s with
            | (.error failure, s) => (⟨hits, some failure⟩, s)
            | (.ok page, s) =>
              let (rest, s) := harvestFrom config limit wanted fuel (taken + hits.length) page s
              (⟨hits ++ rest.hits, rest.failure⟩, s)
    else (⟨[], none⟩, s)

/-- Let go of the scroll after all hits were taken. -/
def finish (config : Config) (harvest : Harvest) (s : Session) : Harvest × Session :=
  match (clear config).run s with
  | (.ok (), s) => (harvest, s)
  | (.error failure, s) => ({ harvest with failure := some failure }, s)

/-- All hits of a request in an index, up to a limit and as far as they are wanted. After the last
answer to a scroll that is still to be given there is an empty page, which bounds the pages. -/
def iterate (config : Config) (index limit lifetime : Json) (wanted : Option Nat) (s : Session) :
    Harvest × Session :=
  if wanted == some 0 then (⟨[], none⟩, s)
  else
    let s := { s with query := s.query.setScanScroll lifetime }
    let (harvest, s) :=
      match (execute config index).run s with
      | (.error failure, s) => (⟨[], some failure⟩, s)
      | (.ok page, s) =>
        harvestFrom config limit wanted ((s.cluster.replies .scroll).length + 1) 0 page s
    finish config harvest s

end LogQuery.Session
