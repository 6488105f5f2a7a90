import Coursework.FoodHaus.App
import Mathlib.Data.Fintype.Basic
import Mathlib.Data.String.Basic
import Mathlib.Tactic.FinCases

/-!
# The menu of the restaurant

The products and prices of the files `MenuData` and `MenuPrice`, category by category. No
two rows have the same name.
-/

namespace Coursework.FoodHaus

/-- `productName` of each category. -/
def productName : List (List String) :=
  [["Roast beef", "BBQ Pulled Beef", "Pastrami", "Reuben"],
    ["Fish Plate", "Clam Plate", "Clam Roll"],
    ["Garden Salad", "Caesar Salad", "Greek Salad"],
    ["Clam Chowder", "Chicken Noodle Soup", "Beef Chilli"],
    ["Hamburger Plate", "Cheeseberger Plate", "Hotdog Plate", "Grilled Cheese Plate",
      "Chicken Finger Plate"],
    ["French Fries", "Onion Rings", "Coleslaw", "Fried Shrimp", "Cheese Fries", "Chicken Finger",
      "Mac & Cheese"]]

/-- `productPrice` of each category. -/
def productPrice : List (List ℚ) :=
  [[9.50, 8.95, 10.95, 11.95],
    [12.95, 12.95, 12.95],
    [5.95, 6.95, 8.75],
    [6.75, 4.95, 4.95],
    [5.95, 6.25, 5.25, 5.25, 6.75],
    [7.95, 9.95, 7.95, 24.95, 6.95, 10.95, 3.50]]

/-- The menu, whose rows are numbered through the categories. -/
def products : Menu (Fin 25) String where
  name row := productName.flatten.getD row ""
  price row := productPrice.flatten.getD row 0

/-- The price of a name. -/
def productPriceOf (name : String) : ℚ :=
  ((productName.flatten.zip productPrice.flatten).lookup name).getD 0

/-- No two rows have the same name. -/
theorem products_name_injective : Function.Injective products.name := by
  intro i j
  revert i j
  decide

/-- Each name has one price. -/
theorem productPriceOf_name (row : Fin 25) :
    productPriceOf (products.name row) = products.price row := by
  fin_cases row <;> rfl

end Coursework.FoodHaus
