import Coursework.Java.Radix
import Coursework.Java.ReadLoop
import Coursework.CacheSimulation.Sys1
import Coursework.CacheSimulation.StackDistance
import Coursework.CacheSimulation.WriteBack
import Coursework.CacheSimulation.Capacity
import Coursework.CacheSimulation.DirectMapped
import Coursework.CacheSimulation.OrderIndependence
import Coursework.CacheSimulation.Main
import Coursework.CacheSimulation.Balance
import Coursework.CacheSimulation.Competition
import Coursework.BranchPrediction.Mispredictions
import Coursework.BranchPrediction.Addresses
import Coursework.BranchPrediction.StaticPrediction
import Coursework.BranchPrediction.Comparison
import Coursework.BranchPrediction.Targets
import Coursework.ProducerConsumer.Consumption
import Coursework.ProducerConsumer.Outcome
import Coursework.Histogram.Agreement
import Coursework.Histogram.Indices
import Coursework.Histogram.LostUpdates
import Coursework.MaxCol.Width
import Coursework.RedCount.Reds
import Coursework.Copy.Faithful
import Coursework.Copy.Prefix
import Coursework.FunctionList.Pieces
import Coursework.Calculator.Chain
import Coursework.Calculator.Reset
import Coursework.Calculator.Operators
import Coursework.Calculator.Leftover
import Coursework.Calculator.Formula
import Coursework.FoodHaus.Cart
import Coursework.FoodHaus.Quantities
import Coursework.FoodHaus.Checkout
import Coursework.FoodHaus.Badges
import Coursework.FoodHaus.Categories
import Coursework.FoodHaus.Countdown
import Coursework.FoodHaus.Bill
import Coursework.TankGame.Conservation
import Coursework.TankGame.Overlap
import Coursework.TankGame.Flight
import Coursework.TankGame.PaintPass
import Coursework.TankGame.AnimationLife
import Coursework.TankGame.FrameFit
import Coursework.TankGame.View
import Coursework.TankGame.GameOver
import Coursework.TankGame.Shots
import Coursework.GalacticMail.Restart
import Coursework.GalacticMail.HighScore
import Coursework.GalacticMail.Credit
import Coursework.GalacticMail.Levels
import Coursework.GalacticMail.Moons
import Coursework.GalacticMail.Collision
import Coursework.ToDoList.Persistence
