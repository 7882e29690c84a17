import UsageBoard.Quota
import UsageBoard.Usage.CacheSeries
import UsageBoard.Usage.Dashboard

/-!
# Charts

A chart is a JSON object that a chart viewer draws.  Its members are in the order of their keys.
-/

namespace UsageBoard.Charts

open UsageBoard.Usage

/-- The space around a chart: top, right, bottom and left. -/
def padding : Json := .list [.integer 40, .integer 20, .integer 60, .integer 60]

def title (text subtext : String) : Json :=
  .object [("visible", .bool true), ("text", .text text), ("subtext", .text subtext),
    ("alignTo", .text "left")]

def stackedLegends : Json :=
  .object [("visible", .bool true), ("selectMode", .text "single"), ("position", .text "top"),
    ("flipPage", .bool true)]

def hoverOutline : Json :=
  .object [("state", .object [("hover", .object [("stroke", .text "#000"), ("lineWidth", .integer 1)])])]

def axis (name : String) : Json :=
  .object [("title", .object [("text", .text name), ("visible", .bool true)])]

def axes (x y : String) : Json := .object [("x", axis x), ("y", axis y)]

def series (id : String) (values : List Json) : Json :=
  .list [.object [("id", .text id), ("values", .list values)]]

def specified (colors : Json) : Json := .object [("specified", colors)]

def callCount (counts : List CallCount) (colors : List (String × String)) (total : Int64) : Json :=
  Json.sorted <| .object
    [("type", .text "pie"),
      ("data", series "id0" (counts.map CallCount.toJson)),
      ("outerRadius", .real 0.8),
      ("innerRadius", .real 0.5),
      ("padAngle", .real 0.6),
      ("valueField", .text "value"),
      ("categoryField", .text "type"),
      ("pie", .object
        [("style", .object [("cornerRadius", .integer 10)]),
          ("state", .object
            [("hover", .object
                [("outerRadius", .real 0.85), ("stroke", .text "#000"), ("lineWidth", .integer 1)]),
              ("selected", .object
                [("outerRadius", .real 0.85), ("stroke", .text "#000"), ("lineWidth", .integer 1)])])]),
      ("title", title "Model call share" ("Total: " ++ abbreviated (Decimal.ofInt total.toInt))),
      ("legends", .object
        [("visible", .bool true), ("orient", .text "left"), ("position", .text "top"),
          ("flipPage", .bool true)]),
      ("label", .object [("visible", .bool true)]),
      ("color", specified (colorsJson colors)),
      ("padding", padding)]

/-- The quota of a row in units of currency, as its six decimals are read. -/
def plotted (format : QuotaFormat) (quota : Float) : Float :=
  (Decimal.parse? (format.inUnits quota 6)).getD 0.0

def consumption (rows : List Consumption) (colors : List (String × String)) (total : Float)
    (format : QuotaFormat) : Json :=
  Json.sorted <| .object
    [("type", .text "bar"),
      ("data", series "barData"
        (rows.map fun row => Consumption.toJson ⟨row.time, row.model, plotted format row.usage⟩)),
      ("xField", .text "Time"),
      ("yField", .text "Usage"),
      ("seriesField", .text "Model"),
      ("stack", .bool true),
      ("legends", stackedLegends),
      ("title", title "Model consumption" ("Total: " ++ format.render total 2)),
      ("bar", hoverOutline),
      ("color", specified (colorsJson colors)),
      ("padding", padding),
      ("axis", axes "Time" "Consumption")]

/-- The cached and other prompt tokens of each bucket, as stacked bars. -/
def tokenCache (points : List CachePoint) : Json :=
  Json.sorted <| .object
    [("type", .text "bar"),
      ("data", series "tokenCacheData" (points.map CachePoint.toJson)),
      ("xField", .text "Time"),
      ("yField", .text "Value"),
      ("seriesField", .text "Type"),
      ("stack", .bool true),
      ("legends", stackedLegends),
      ("title", title "Token cache hits" ""),
      ("bar", hoverOutline),
      ("color", specified (.object
        [(nonCacheTokens, .text "#1890ff"), (cacheHitTokens, .text "#52c41a")])),
      ("padding", padding),
      ("axis", axes "Time" "Tokens")]

end UsageBoard.Charts
